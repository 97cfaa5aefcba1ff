/-
Source identity messages (`remote/source_wire.rs`): the version of the current source and the
catalog of granted ones. Identifiers only refer to the host's grants. The formats are exact.
-/
import Jwm.Data.ExactCodec
import Jwm.Remote.SourceSession

namespace Jwm.Remote

open List

/-! ## Versions -/

def maxSourceLabelLen : Nat := 256
def maxSourceCatalogLen : Nat := 13 + maxGrantedSources * (6 + maxSourceLabelLen)

/-- A version on the wire: its epoch is a `u64`. -/
abbrev WireVersion := { version : SourceVersion // version.epoch < 2 ^ 64 }

def validateVersion (version : WireVersion) : Except String Unit :=
  rejectIf (version.1.epoch = 0 || version.1.source = 0) "zero source epoch or identifier"

def versionBytes (version : WireVersion) : List Byte := toBeBytes 8 version.1.epoch ++ wordBytes version.1.source

def encodeSourceChanged (version : WireVersion) : Except String (List Byte) := do
  validateVersion version
  return versionBytes version

def decodeSourceChanged (payload : List Byte) : Except String WireVersion := do
  rejectIf (payload.length ≠ 12) "invalid source version length"
  let epoch := readWord 64 (slice payload 0 8)
  let source := readWord 32 (payload.drop 8)
  let version : WireVersion := ⟨⟨source, epoch.toNat⟩, epoch.isLt⟩
  validateVersion version
  return version

/-! ## Catalogs -/

structure SourceEntry where
  id : SourceId
  label : String
deriving DecidableEq

structure SourceCatalog where
  current : WireVersion
  entries : List SourceEntry
deriving DecidableEq

/-- The loop of `validate`: an entry is checked against those before it. -/
def validateEntries : List SourceEntry → List SourceEntry → Except String Unit
  | _, [] => .ok ()
  | previous, entry :: entries => do
    rejectIf (entry.id = 0 || entry.label.isEmpty || entry.label.utf8ByteSize > maxSourceLabelLen ||
      entry.label.toList.any isControl || previous.any fun p => p.id = entry.id) "invalid source catalog entry"
    validateEntries (previous ++ [entry]) entries

namespace SourceCatalog

def validate (c : SourceCatalog) : Except String Unit := do
  validateVersion c.current
  rejectIf (c.entries.isEmpty || c.entries.length > maxGrantedSources) "invalid source catalog count"
  validateEntries [] c.entries
  rejectIf (!c.entries.any fun entry => entry.id = c.current.1.source) "current source is absent from catalog"

def entryBytes (entry : SourceEntry) : List Byte :=
  wordBytes entry.id ++ (toBeBytes 2 entry.label.utf8ByteSize ++ utf8Bytes entry.label)

def encode (c : SourceCatalog) : Except String (List Byte) := do
  c.validate
  let payload ← encodeSourceChanged c.current
  return c.entries.foldl (fun payload entry => payload ++ entryBytes entry) (payload ++ [BitVec.ofNat 8 c.entries.length])

/-- The loop of `decode`: the entries and what is left of the payload. -/
def decodeEntries : Nat → List Byte → Except String (List SourceEntry × List Byte)
  | 0, rest => .ok ([], rest)
  | count + 1, rest => do
    rejectIf (rest.length < 6) "truncated source catalog entry"
    let id := readWord 32 (slice rest 0 4)
    let len := fromBeBytes (slice rest 4 6)
    let rest := rest.drop 6
    rejectIf (len = 0 || len > maxSourceLabelLen || rest.length < len) "invalid source label length"
    let label ← fromUtf8 (rest.take len)
    let (entries, rest) ← decodeEntries count (rest.drop len)
    return (⟨id, label⟩ :: entries, rest)

def decode (payload : List Byte) : Except String SourceCatalog := do
  rejectIf (payload.length < 13 || payload.length > maxSourceCatalogLen) "invalid source catalog length"
  let current ← decodeSourceChanged (slice payload 0 12)
  let count := (payload.getD 12 0).toNat
  rejectIf (count = 0 || count > maxGrantedSources) "invalid source catalog count"
  let (entries, rest) ← decodeEntries count (payload.drop 13)
  rejectIf (rest ≠ []) "trailing source catalog bytes"
  let catalog : SourceCatalog := ⟨current, entries⟩
  catalog.validate
  return catalog

end SourceCatalog

/-! ## Exactness -/

theorem wordBytes_toNat {w : Nat} (v : BitVec w) : toBeBytes (w / 8) v.toNat = wordBytes v := rfl

theorem length_versionBytes (version : WireVersion) : (versionBytes version).length = 12 := by
  simp [versionBytes]

variable {version : WireVersion} {payload : List Byte}

theorem encodeSourceChanged_eq_ok {bytes : List Byte} :
    encodeSourceChanged version = .ok bytes ↔ validateVersion version = .ok () ∧ bytes = versionBytes version := by
  unfold encodeSourceChanged
  rw [unit_bind_eq_ok, pure_eq_ok, eq_comm (a := bytes)]

theorem versionBytes_eq (version : WireVersion) : versionBytes version =
    wordBytes (BitVec.ofNat 64 version.1.epoch) ++ (wordBytes version.1.source ++ []) := by
  rw [append_nil, versionBytes, ← wordBytes_toNat (BitVec.ofNat 64 version.1.epoch), BitVec.toNat_ofNat,
    Nat.mod_eq_of_lt version.2]

theorem decodeSourceChanged_eq_ok :
    decodeSourceChanged payload = .ok version ↔ validateVersion version = .ok () ∧ payload = versionBytes version := by
  unfold decodeSourceChanged
  simp only [unit_bind_eq_ok, rejectIf_eq_ok, pure_eq_ok, ne_eq, not_not]
  refine ⟨fun ⟨hlen, hv, h⟩ => ?_, fun ⟨hv, hp⟩ => ?_⟩
  · subst h
    refine ⟨hv, ?_⟩
    have hfirst := drop_eq_word (w := 64) rfl (a := 0) (b := 8) rfl (by omega : 8 ≤ payload.length)
    have hsecond := drop_eq_word (w := 32) rfl (a := 8) (b := 12) rfl (by omega : 12 ≤ payload.length)
    rw [drop_of_length_le (Nat.le_of_eq hlen), ← hlen, slice_length] at hsecond
    rw [hsecond] at hfirst
    rw [versionBytes_eq, BitVec.ofNat_toNat, BitVec.setWidth_eq]
    exact hfirst
  · have hlen := length_versionBytes version
    obtain ⟨hepoch, h8⟩ := word_next rfl (l := versionBytes version) (a := 0) (b := 8) (versionBytes_eq version) rfl
    obtain ⟨hsource, -⟩ := word_next rfl (b := 12) h8 rfl
    rw [← hlen, slice_length] at hsource
    subst hp
    have hread : (⟨⟨readWord 32 ((versionBytes version).drop 8), (readWord 64 (slice (versionBytes version) 0 8)).toNat⟩,
        BitVec.isLt _⟩ : WireVersion) = version := by
      refine Subtype.ext ?_
      show (⟨_, _⟩ : SourceVersion) = version.1
      rw [hepoch, hsource, BitVec.toNat_ofNat, Nat.mod_eq_of_lt version.2]
    rw [hread]
    exact ⟨hlen, hv, rfl⟩

namespace SourceCatalog

def LabelFits (entry : SourceEntry) : Prop := 0 < entry.label.utf8ByteSize ∧ entry.label.utf8ByteSize ≤ maxSourceLabelLen

theorem labelFits_of_validateEntries : ∀ {entries previous : List SourceEntry}, validateEntries previous entries = .ok () →
    ∀ entry ∈ entries, LabelFits entry
  | [], _, _ => fun _ h => absurd h not_mem_nil
  | entry :: entries, previous, h => by
    obtain ⟨hentry, hrest⟩ := unit_bind_eq_ok.1 h
    refine forall_mem_cons.2 ⟨?_, labelFits_of_validateEntries hrest⟩
    simp only [rejectIf_eq_ok, Bool.or_eq_true, decide_eq_true_eq, not_or, Nat.not_lt, String.isEmpty_iff] at hentry
    refine ⟨Nat.pos_of_ne_zero fun h0 => hentry.1.1.1.2 ?_, hentry.1.1.2⟩
    exact String.utf8ByteSize_eq_zero_iff.1 h0

theorem entryBytes_eq (entry : SourceEntry) (h : LabelFits entry) (rest : List Byte) : entryBytes entry ++ rest =
    wordBytes entry.id ++ (wordBytes (BitVec.ofNat 16 entry.label.utf8ByteSize) ++ (utf8Bytes entry.label ++ rest)) := by
  have hsize := h.2
  unfold maxSourceLabelLen at hsize
  rw [entryBytes, ← wordBytes_toNat (BitVec.ofNat 16 _), BitVec.toNat_ofNat, Nat.mod_eq_of_lt (by omega), append_assoc,
    append_assoc]

theorem decodeEntries_eq_ok : ∀ {count : Nat} {payload rest : List Byte} {entries : List SourceEntry},
    decodeEntries count payload = .ok (entries, rest) ↔ entries.length = count ∧ (∀ entry ∈ entries, LabelFits entry) ∧
      payload = entries.flatMap entryBytes ++ rest
  | 0, payload, rest, entries => by
    rw [decodeEntries]
    refine ⟨fun h => ?_, fun ⟨hlen, _, h⟩ => ?_⟩
    · obtain ⟨rfl, rfl⟩ := Prod.mk.inj (Except.ok.inj h)
      exact ⟨rfl, fun _ h => absurd h not_mem_nil, rfl⟩
    · obtain rfl := eq_nil_of_length_eq_zero hlen
      rw [h]
      rfl
  | count + 1, payload, rest, entries => by
    rw [decodeEntries]
    simp only [unit_bind_eq_ok, rejectIf_eq_ok]
    refine ⟨fun ⟨hlen, hsize, h⟩ => ?_, fun ⟨hlen, hfits, h⟩ => ?_⟩
    · obtain ⟨label, hlabel, h⟩ := bind_eq_ok.1 h
      obtain ⟨⟨entries', rest'⟩, hrest, h⟩ := bind_eq_ok.1 h
      obtain ⟨rfl, rfl⟩ := Prod.mk.inj (pure_eq_ok.1 h)
      obtain ⟨hcount, hall, hrest⟩ := decodeEntries_eq_ok.1 hrest
      simp only [Bool.or_eq_true, decide_eq_true_eq, not_or, Nat.not_lt] at hsize
      have hbytes := fromUtf8_eq_ok.1 hlabel
      have hlabelLen : label.utf8ByteSize = fromBeBytes (slice payload 4 6) := by
        rw [← length_utf8Bytes, hbytes, length_take]
        omega
      have hfits : LabelFits ⟨readWord 32 (slice payload 0 4), label⟩ := by
        refine ⟨?_, ?_⟩
        · show 0 < label.utf8ByteSize
          omega
        · show label.utf8ByteSize ≤ _
          omega
      refine ⟨by rw [length_cons, hcount], forall_mem_cons.2 ⟨hfits, hall⟩, ?_⟩
      have hfirst := drop_eq_word (w := 32) rfl (a := 0) (b := 4) rfl (by omega : 4 ≤ payload.length)
      have hsecond := drop_eq_word (w := 16) rfl (a := 4) (b := 6) rfl (by omega : 6 ≤ payload.length)
      rw [flatMap_cons, append_assoc, entryBytes_eq _ hfits, ← hrest, hbytes, take_append_drop, hlabelLen]
      rw [hsecond, drop_zero] at hfirst
      exact hfirst
    · cases entries with
      | nil => cases hlen
      | cons entry entries =>
        obtain ⟨hfit, hfits⟩ := forall_mem_cons.1 hfits
        rw [flatMap_cons, append_assoc, entryBytes_eq _ hfit] at h
        obtain ⟨hpos, hmax⟩ := hfit
        have hsmall : entry.label.utf8ByteSize < 65536 := by
          unfold maxSourceLabelLen at hmax
          omega
        have hlen6 : 6 ≤ payload.length := by
          rw [h]
          simp
          omega
        obtain ⟨hid, h4⟩ := word_next rfl (l := payload) (a := 0) (b := 4) h rfl
        obtain ⟨hsize, h6⟩ := word_next rfl (b := 6) h4 rfl
        have hsize : fromBeBytes (slice payload 4 6) = entry.label.utf8ByteSize := by
          have hlt : fromBeBytes (slice payload 4 6) < 65536 := by
            have h256 := (toBeBytes_fromBeBytes (slice payload 4 6)).1
            rw [length_slice hlen6] at h256
            exact h256
          have hval := congrArg BitVec.toNat hsize
          unfold readWord at hval
          rw [BitVec.toNat_ofNat, BitVec.toNat_ofNat, Nat.mod_eq_of_lt hlt, Nat.mod_eq_of_lt hsmall] at hval
          exact hval
        rw [hsize, hid, h6]
        refine ⟨Nat.not_lt.2 hlen6, ?_, bind_eq_ok.2 ⟨entry.label, fromUtf8_eq_ok.2 ?_, bind_eq_ok.2 ⟨(entries, rest), ?_, rfl⟩⟩⟩
        · simp only [Bool.or_eq_true, decide_eq_true_eq, not_or, Nat.not_lt, length_append, length_utf8Bytes]
          exact ⟨⟨Nat.ne_of_gt hpos, hmax⟩, Nat.le_add_right ..⟩
        · rw [take_left' (length_utf8Bytes _)]
        · rw [drop_left' (length_utf8Bytes _)]
          exact decodeEntries_eq_ok.2 ⟨Nat.succ.inj hlen, hfits, rfl⟩

def bytes (c : SourceCatalog) : List Byte :=
  versionBytes c.current ++ ([BitVec.ofNat 8 c.entries.length] ++ c.entries.flatMap entryBytes)

/-- What a valid catalog keeps of its limits. -/
structure Fits (c : SourceCatalog) : Prop where
  version : validateVersion c.current = .ok ()
  nonempty : 0 < c.entries.length
  length : c.entries.length ≤ maxGrantedSources
  labels : ∀ entry ∈ c.entries, LabelFits entry

variable {c : SourceCatalog}

theorem fits_of_validate (h : c.validate = .ok ()) : Fits c := by
  unfold validate at h
  simp only [unit_bind_eq_ok, rejectIf_eq_ok, Bool.or_eq_true, decide_eq_true_eq, not_or, Nat.not_lt,
    List.isEmpty_iff] at h
  obtain ⟨hversion, ⟨hne, hlen⟩, hentries, -⟩ := h
  exact ⟨hversion, length_pos_iff.2 hne, hlen, labelFits_of_validateEntries hentries⟩

theorem length_entryBytes (entry : SourceEntry) : (entryBytes entry).length = 6 + entry.label.utf8ByteSize := by
  simp [entryBytes]
  omega

theorem length_flatMap_entryBytes : ∀ {entries : List SourceEntry}, (∀ entry ∈ entries, LabelFits entry) →
    (entries.flatMap entryBytes).length ≤ entries.length * (6 + maxSourceLabelLen)
  | [], _ => Nat.zero_le _
  | entry :: entries, h => by
    obtain ⟨⟨-, hentry⟩, hrest⟩ := forall_mem_cons.1 h
    have hle := length_flatMap_entryBytes hrest
    rw [flatMap_cons, length_append, length_entryBytes, length_cons, Nat.succ_mul]
    omega

theorem length_bytes (h : Fits c) : 13 ≤ c.bytes.length ∧ c.bytes.length ≤ maxSourceCatalogLen := by
  have hle := length_flatMap_entryBytes h.labels
  have hmul : c.entries.length * (6 + maxSourceLabelLen) ≤ maxGrantedSources * (6 + maxSourceLabelLen) :=
    Nat.mul_le_mul_right _ h.length
  unfold bytes maxSourceCatalogLen
  rw [length_append, length_versionBytes, length_append, length_singleton]
  omega

theorem encode_eq_ok : c.encode = .ok payload ↔ c.validate = .ok () ∧ payload = c.bytes := by
  have hfold : ∀ (entries : List SourceEntry) (start : List Byte),
      entries.foldl (fun payload entry => payload ++ entryBytes entry) start = start ++ entries.flatMap entryBytes := by
    intro entries
    induction entries with
    | nil => simp
    | cons entry entries ih =>
      intro start
      rw [foldl_cons, ih, flatMap_cons, append_assoc]
  unfold encode
  rw [unit_bind_eq_ok, bind_eq_ok]
  simp only [encodeSourceChanged_eq_ok, pure_eq_ok, hfold]
  refine ⟨fun ⟨hv, head, ⟨_, hhead⟩, h⟩ => ⟨hv, ?_⟩, fun ⟨hv, h⟩ => ⟨hv, _, ⟨(fits_of_validate hv).version, rfl⟩, ?_⟩⟩
  · rw [← h, hhead, append_assoc, bytes]
  · rw [h, append_assoc, bytes]

theorem bytes_parts (c : SourceCatalog) : slice c.bytes 0 12 = versionBytes c.current ∧
    c.bytes.getD 12 0 = BitVec.ofNat 8 c.entries.length ∧ c.bytes.drop 13 = c.entries.flatMap entryBytes := by
  have hlen := length_versionBytes c.current
  unfold bytes
  refine ⟨slice_append_self hlen.symm, ?_, ?_⟩
  · rw [getD_append_right (by rw [hlen]), hlen]
    rfl
  · rw [← append_assoc]
    exact drop_left' (by rw [length_append, hlen, length_singleton])

theorem decode_eq_ok : decode payload = .ok c ↔ c.validate = .ok () ∧ payload = c.bytes := by
  unfold decode
  simp only [unit_bind_eq_ok]
  refine ⟨fun ⟨hsize, h⟩ => ?_, fun ⟨hv, hp⟩ => ?_⟩
  · obtain ⟨current, hcurrent, h⟩ := bind_eq_ok.1 h
    obtain ⟨hcount, h⟩ := unit_bind_eq_ok.1 h
    obtain ⟨⟨entries, rest⟩, hentries, h⟩ := bind_eq_ok.1 h
    obtain ⟨hrest, h⟩ := unit_bind_eq_ok.1 h
    obtain ⟨hv, h⟩ := unit_bind_eq_ok.1 h
    obtain rfl := pure_eq_ok.1 h
    obtain ⟨hlen, -, hbytes⟩ := decodeEntries_eq_ok.1 hentries
    obtain ⟨-, hversion⟩ := decodeSourceChanged_eq_ok.1 hcurrent
    simp only [rejectIf_eq_ok, ne_eq, not_not] at hrest
    simp only [rejectIf_eq_ok, Bool.or_eq_true, decide_eq_true_eq, not_or, Nat.not_lt] at hsize
    refine ⟨hv, ?_⟩
    have hbyte : payload.drop 12 = [payload.getD 12 0] ++ payload.drop 13 := by
      rw [getD_eq_getElem?_getD, getElem?_eq_getElem (by omega)]
      exact drop_eq_getElem_cons (by omega)
    unfold bytes
    rw [← hversion, hlen, BitVec.ofNat_toNat, BitVec.setWidth_eq]
    rw [hrest, append_nil] at hbytes
    rw [← hbytes, ← hbyte, slice_append_drop _ (by decide), drop_zero]
  · subst hp
    have hfits := fits_of_validate hv
    obtain ⟨hmin, hmax⟩ := length_bytes hfits
    obtain ⟨hversion, hcount, hentries⟩ := bytes_parts c
    have hlen := hfits.length
    have hpos := hfits.nonempty
    unfold maxGrantedSources at hlen
    have hcount' : (BitVec.ofNat 8 c.entries.length).toNat = c.entries.length := by
      rw [BitVec.toNat_ofNat, Nat.mod_eq_of_lt (by omega)]
    rw [hversion, hcount, hentries, hcount']
    refine ⟨?_, bind_eq_ok.2 ⟨c.current, decodeSourceChanged_eq_ok.2 ⟨hfits.version, rfl⟩, ?_⟩⟩
    · simp only [rejectIf_eq_ok, Bool.or_eq_true, decide_eq_true_eq, not_or, Nat.not_lt]
      exact ⟨hmin, hmax⟩
    refine unit_bind_eq_ok.2 ⟨?_, bind_eq_ok.2 ⟨(c.entries, []), decodeEntries_eq_ok.2 ⟨rfl, hfits.labels, ?_⟩, ?_⟩⟩
    · simp only [rejectIf_eq_ok, Bool.or_eq_true, decide_eq_true_eq, not_or, Nat.not_lt]
      exact ⟨Nat.ne_of_gt hpos, hfits.length⟩
    · rw [append_nil]
    · exact unit_bind_eq_ok.2 ⟨rejectIf_eq_ok.2 fun h => h rfl, unit_bind_eq_ok.2 ⟨hv, rfl⟩⟩

theorem exact : ExactCodec encode decode :=
  ⟨fun h => decode_eq_ok.2 (encode_eq_ok.1 h), fun h => encode_eq_ok.2 (decode_eq_ok.1 h)⟩

theorem prefixFree : PrefixFree decode := by
  intro payload extension a b ha hb
  obtain ⟨hva, rfl⟩ := decode_eq_ok.1 ha
  obtain ⟨hvb, heq⟩ := decode_eq_ok.1 hb
  have hfa := fits_of_validate hva
  have hfb := fits_of_validate hvb
  unfold bytes at heq
  rw [append_assoc, append_assoc] at heq
  obtain ⟨-, heq⟩ := append_inj heq (by rw [length_versionBytes, length_versionBytes])
  obtain ⟨hcount, heq⟩ := append_inj heq rfl
  have hcount : a.entries.length = b.entries.length := by
    have hla := hfa.length
    have hlb := hfb.length
    have hbyte := congrArg BitVec.toNat (singleton_inj.1 hcount)
    unfold maxGrantedSources at hla hlb
    rw [BitVec.toNat_ofNat, BitVec.toNat_ofNat, Nat.mod_eq_of_lt (by omega), Nat.mod_eq_of_lt (by omega)] at hbyte
    exact hbyte
  have hread := decodeEntries_eq_ok.2 ⟨hcount, hfa.labels, heq.symm⟩
  have hread' := decodeEntries_eq_ok.2 ⟨rfl, hfb.labels, (append_nil _).symm⟩
  rw [hread] at hread'
  exact (Prod.mk.inj (Except.ok.inj hread')).2

end SourceCatalog

end Jwm.Remote
