/-
Text as UTF-8 bytes: one block of bytes a character, of which only the first is a character boundary. Cutting the bytes at
the last boundary that a limit allows keeps the longest run of characters that fits; bytes that are no text are repaired.
-/
import Jwm.Data.ExactCodec

namespace Jwm.Utf8

open List

/-! ## Boundaries -/

/-- The first byte of a character: `(byte as i8) >= -0x40`. -/
def isBoundaryByte (b : Byte) : Bool := -0x40 ≤ b.toInt

/-- `str::is_char_boundary`. -/
def isCharBoundary (bytes : List Byte) (index : Nat) : Bool :=
  index == 0 ||
    match bytes[index]? with
    | none => index == bytes.length
    | some b => isBoundaryByte b

def floorBoundary (bytes : List Byte) : Nat → Nat
  | 0 => 0
  | index + 1 => if isCharBoundary bytes (index + 1) then index + 1 else floorBoundary bytes index

/-! ## Repair -/

def continues (b : Byte) : Bool := 0x80 ≤ b.toNat && b.toNat < 0xC0

/-- How many bytes of an ill-formed sequence could still have started a character; at least one. -/
def subpartLength : List Byte → Nat
  | first :: second :: rest =>
    let begins :=
      match first.toNat with
      | 0xE0 => 0xA0 ≤ second.toNat && second.toNat < 0xC0
      | 0xED => 0x80 ≤ second.toNat && second.toNat < 0xA0
      | 0xF0 => 0x90 ≤ second.toNat && second.toNat < 0xC0
      | 0xF4 => 0x80 ≤ second.toNat && second.toNat < 0x90
      | n => 0xE0 ≤ n && n < 0xF4 && continues second
    if !begins then 1
    else if first.toNat < 0xF0 then 2
    else
      match rest with
      | third :: _ => if continues third then 3 else 2
      | [] => 2
  | _ => 1

/-- Every ill-formed sequence becomes a replacement character. -/
def repair : Nat → List Byte → List Char
  | 0, _ => []
  | _, [] => []
  | fuel + 1, bytes =>
    match ByteArray.utf8DecodeChar? ⟨(bytes.map UInt8.ofBitVec).toArray⟩ 0 with
    | some c => c :: repair fuel (bytes.drop c.utf8Size)
    | none => '\uFFFD' :: repair fuel (bytes.drop (subpartLength bytes))

/-- `String::from_utf8_lossy`. -/
def fromUtf8Lossy (bytes : List Byte) : String :=
  match fromUtf8 bytes with
  | .ok s => s
  | .error _ => String.ofList (repair bytes.length bytes)

theorem fromUtf8Lossy_utf8Bytes (s : String) : fromUtf8Lossy (utf8Bytes s) = s := by
  unfold fromUtf8Lossy
  rw [fromUtf8_eq_ok.2 rfl]

/-! ## Blocks -/

def charBytes (c : Char) : List Byte := (String.utf8EncodeChar c).map UInt8.toBitVec

def encode (text : List Char) : List Byte := text.flatMap charBytes

theorem utf8Bytes_eq (s : String) : utf8Bytes s = encode s.toList := by
  unfold utf8Bytes encode charBytes
  rw [← String.utf8Encode_toList, utf8Encode, toList_data_toByteArray, map_flatMap]

theorem isBoundaryByte_eq (b : Byte) : isBoundaryByte b = !continues b := by
  revert b
  decide

section

variable {n : Nat}

theorem toNat_ofNat (h : n < 256) : (UInt8.ofNat n).toBitVec.toNat = n := by
  show (BitVec.ofNat 8 n).toNat = n
  rw [BitVec.toNat_ofNat, Nat.mod_eq_of_lt h]

theorem continues_lead (h : n < 256) (hn : n < 0x80 ∨ 0xC0 ≤ n) : continues (UInt8.ofNat n).toBitVec = false := by
  unfold continues
  rw [toNat_ofNat h, Bool.and_eq_false_iff, decide_eq_false_iff_not, decide_eq_false_iff_not]
  omega

theorem continues_tail (n : Nat) : continues (UInt8.ofNat (n % 0x40 + 0x80)).toBitVec = true := by
  unfold continues
  rw [toNat_ofNat (by omega), Bool.and_eq_true, decide_eq_true_eq, decide_eq_true_eq]
  omega

theorem ofNat_ne_zero (h : n < 256) (hn : 0 < n) : (UInt8.ofNat n).toBitVec ≠ 0 := fun e => by
  have hzero := congrArg BitVec.toNat e
  rw [toNat_ofNat h] at hzero
  exact Nat.ne_of_gt hn hzero

end

/-- A character is a boundary byte and bytes that continue it; the first is zero for NUL only. -/
theorem charBytes_spec (c : Char) : ∃ first rest, charBytes c = first :: rest ∧ continues first = false ∧
    (∀ b ∈ rest, continues b = true) ∧ (first = 0 ↔ c = '\x00') := by
  have hvalue : c.val.toNat = 0 ↔ c = '\x00' := by
    refine ⟨fun h => Char.ext (UInt32.toNat_inj.1 h), ?_⟩
    rintro rfl
    rfl
  have wide : ∀ {n : Nat}, 0x7f < c.val.toNat → n < 256 → 0 < n → ((UInt8.ofNat n).toBitVec = 0 ↔ c = '\x00') := by
    intro n hc hn hpos
    refine iff_of_false (ofNat_ne_zero hn hpos) fun h => ?_
    have := hvalue.2 h
    omega
  unfold charBytes String.utf8EncodeChar
  dsimp only
  split
  · refine ⟨_, _, rfl, continues_lead (by omega) (by omega), ?_, ?_⟩
    · exact fun b hb => absurd hb not_mem_nil
    · rw [← hvalue, ← BitVec.toNat_inj, toNat_ofNat (by omega)]
      exact Iff.rfl
  · split
    · refine ⟨_, _, rfl, continues_lead (by omega) (by omega), ?_, wide (by omega) (by omega) (by omega)⟩
      rw [map_singleton, forall_mem_singleton]
      exact continues_tail _
    · split
      · refine ⟨_, _, rfl, continues_lead (by omega) (by omega), ?_, wide (by omega) (by omega) (by omega)⟩
        rw [map_cons, map_singleton, forall_mem_cons, forall_mem_singleton]
        exact ⟨continues_tail _, continues_tail _⟩
      · refine ⟨_, _, rfl, continues_lead (by omega) (by omega), ?_, wide (by omega) (by omega) (by omega)⟩
        rw [map_cons, map_cons, map_singleton, forall_mem_cons, forall_mem_cons, forall_mem_singleton]
        exact ⟨continues_tail _, continues_tail _, continues_tail _⟩

theorem length_charBytes_pos (c : Char) : 0 < (charBytes c).length := by
  obtain ⟨first, rest, h, -⟩ := charBytes_spec c
  rw [h]
  exact Nat.succ_pos _

theorem encode_cons (c : Char) (text : List Char) : encode (c :: text) = charBytes c ++ encode text := flatMap_cons

theorem encode_append (p q : List Char) : encode (p ++ q) = encode p ++ encode q := flatMap_append

theorem length_encode_le {p q : List Char} (h : p <+: q) : (encode p).length ≤ (encode q).length := by
  obtain ⟨r, rfl⟩ := h
  rw [encode_append, length_append]
  exact Nat.le_add_right _ _

theorem prefix_of_length_le {p q text : List Char} (hp : p <+: text) (hq : q <+: text)
    (h : (encode p).length ≤ (encode q).length) : p <+: q := by
  rcases prefix_or_prefix_of_prefix hp hq with hpq | ⟨r, rfl⟩
  · exact hpq
  · cases r with
    | nil => exact ⟨[], by simp⟩
    | cons c r =>
      rw [encode_append, encode_cons, length_append, length_append] at h
      have := length_charBytes_pos c
      omega

/-! ## Terminators -/

theorem ne_zero_of_mem_charBytes {c : Char} (hc : c ≠ '\x00') {b : Byte} (hb : b ∈ charBytes c) : b ≠ 0 := by
  obtain ⟨first, rest, h, -, hrest, hzero⟩ := charBytes_spec c
  rw [h] at hb
  rcases mem_cons.1 hb with rfl | hb
  · exact fun h0 => hc (hzero.1 h0)
  · rintro rfl
    exact absurd (hrest 0 hb) (by decide)

theorem takeWhile_encode (text : List Char) :
    (encode text).takeWhile (· != 0) = encode (text.takeWhile (· != '\x00')) := by
  induction text with
  | nil => rfl
  | cons c text ih =>
    rw [encode_cons]
    by_cases hc : c = '\x00'
    · subst hc
      rfl
    · rw [takeWhile_cons_of_pos (by simpa using hc), encode_cons, ← ih]
      exact takeWhile_append_of_pos fun b hb => by simpa using ne_zero_of_mem_charBytes hc hb

/-! ## Cutting -/

/-- The longest run of first characters whose bytes fit. -/
structure LongestFitting (text : List Char) (limit : Nat) (p : List Char) : Prop where
  isPrefix : p <+: text
  fits : (encode p).length ≤ limit
  longest : ∀ q, q <+: text → (encode q).length ≤ limit → q <+: p

theorem isCharBoundary_head (l : List Byte) (text : List Char) :
    isCharBoundary (l ++ encode text) l.length = true := by
  unfold isCharBoundary
  rw [getElem?_append_right (Nat.le_refl _), Nat.sub_self, length_append, Bool.or_eq_true]
  refine .inr ?_
  cases text with
  | nil => exact beq_self_eq_true _
  | cons c text =>
    obtain ⟨first, rest, h, hfirst, -⟩ := charBytes_spec c
    rw [encode_cons, h]
    show isBoundaryByte first = true
    rw [isBoundaryByte_eq, hfirst]
    rfl

theorem floorBoundary_append (l : List Byte) (text : List Char) (hl : 0 < l.length) (m : Nat) :
    floorBoundary (l ++ encode text) (l.length + m) = l.length + floorBoundary (encode text) m := by
  induction m with
  | zero =>
    obtain ⟨k, hk⟩ := Nat.exists_eq_add_one_of_ne_zero (Nat.ne_of_gt hl)
    have := isCharBoundary_head l text
    rw [hk] at this
    show floorBoundary _ l.length = l.length
    rw [hk, floorBoundary, if_pos this]
  | succ m ih =>
    have hat : isCharBoundary (l ++ encode text) (l.length + m + 1) = isCharBoundary (encode text) (m + 1) := by
      unfold isCharBoundary
      rw [getElem?_append_right (by omega), Nat.add_assoc, Nat.add_sub_cancel_left, length_append]
      rw [beq_false_of_ne (show l.length + (m + 1) ≠ 0 by omega), beq_false_of_ne (Nat.succ_ne_zero m)]
      cases (encode text)[m + 1]? with
      | none => simp
      | some b => rfl
    rw [← Nat.add_assoc, floorBoundary, floorBoundary, hat, ih]
    split <;> rfl

theorem floorBoundary_inside {first : Byte} {rest tail : List Byte} (h : ∀ b ∈ rest, continues b = true) {m : Nat}
    (hm : m ≤ rest.length) : floorBoundary (first :: (rest ++ tail)) m = 0 := by
  induction m with
  | zero => rfl
  | succ m ih =>
    have hin : isCharBoundary (first :: (rest ++ tail)) (m + 1) = false := by
      unfold isCharBoundary
      rw [getElem?_cons_succ, getElem?_append_left (by omega), getElem?_eq_getElem (by omega)]
      show isBoundaryByte rest[m] = false
      rw [isBoundaryByte_eq, h _ (getElem_mem _)]
      rfl
    rw [floorBoundary, hin, if_neg Bool.false_ne_true, ih (by omega)]

/-- Cut at the last boundary up to a limit, the bytes of a text are those of the longest run that fits. -/
theorem take_floorBoundary (text : List Char) {limit : Nat} (h : limit ≤ (encode text).length) :
    ∃ p, LongestFitting text limit p ∧ (encode text).take (floorBoundary (encode text) limit) = encode p := by
  induction text generalizing limit with
  | nil =>
    refine ⟨[], ⟨prefix_refl _, Nat.zero_le _, fun q hq _ => hq⟩, ?_⟩
    exact take_nil
  | cons c text ih =>
    rw [encode_cons, length_append] at h
    by_cases hc : (charBytes c).length ≤ limit
    · obtain ⟨m, rfl⟩ := Nat.exists_eq_add_of_le hc
      obtain ⟨p, hp, htake⟩ := ih (Nat.le_of_add_le_add_left h)
      refine ⟨c :: p, ⟨cons_prefix_cons.2 ⟨rfl, hp.isPrefix⟩, ?_, ?_⟩, ?_⟩
      · rw [encode_cons, length_append]
        exact Nat.add_le_add_left hp.fits _
      · intro q hq hfits
        cases q with
        | nil => exact List.nil_prefix
        | cons d q =>
          obtain ⟨rfl, htail⟩ := cons_prefix_cons.1 hq
          rw [encode_cons, length_append] at hfits
          exact cons_prefix_cons.2 ⟨rfl, hp.longest q htail (Nat.le_of_add_le_add_left hfits)⟩
      · rw [encode_cons, floorBoundary_append _ _ (length_charBytes_pos c), take_length_add_append, htake, encode_cons]
    · refine ⟨[], ⟨List.nil_prefix, Nat.zero_le _, ?_⟩, ?_⟩
      · intro q hq hfits
        cases q with
        | nil => exact List.nil_prefix
        | cons d q =>
          obtain ⟨rfl, -⟩ := cons_prefix_cons.1 hq
          rw [encode_cons, length_append] at hfits
          omega
      · obtain ⟨first, rest, hbytes, -, hrest, -⟩ := charBytes_spec c
        rw [hbytes, length_cons] at hc
        rw [encode_cons, hbytes, cons_append, floorBoundary_inside hrest (by omega)]
        rfl

/-! ## Slices -/

/-- The characters before a byte offset and behind it; nothing if the offset is inside a character or beyond the text. -/
def splitAtByte : List Char → Nat → Option (List Char × List Char)
  | text, 0 => some ([], text)
  | [], _ + 1 => none
  | c :: text, index + 1 =>
    if (charBytes c).length ≤ index + 1 then
      (splitAtByte text (index + 1 - (charBytes c).length)).map fun parts => (c :: parts.1, parts.2)
    else none

theorem splitAtByte_eq_some : ∀ {text : List Char} {index : Nat} {a b : List Char},
    splitAtByte text index = some (a, b) ↔ text = a ++ b ∧ (encode a).length = index
  | text, 0, a, b => by
    rw [splitAtByte, Option.some.injEq, Prod.mk.injEq]
    constructor
    · rintro ⟨rfl, rfl⟩
      exact ⟨rfl, rfl⟩
    · rintro ⟨rfl, hlen⟩
      cases a with
      | nil => exact ⟨rfl, rfl⟩
      | cons c a =>
        rw [encode_cons, length_append] at hlen
        have := length_charBytes_pos c
        omega
  | [], index + 1, a, b => by
    rw [splitAtByte]
    constructor
    · intro h
      cases h
    · rintro ⟨heq, hlen⟩
      obtain ⟨rfl, -⟩ := append_eq_nil_iff.1 heq.symm
      cases hlen
  | c :: text, index + 1, a, b => by
    have hpos := length_charBytes_pos c
    rw [splitAtByte]
    constructor
    · intro h
      split at h
      · obtain ⟨parts, hparts, heq⟩ := Option.map_eq_some_iff.1 h
        cases heq
        obtain ⟨rfl, hlen⟩ := splitAtByte_eq_some.1 hparts
        rw [encode_cons, length_append]
        exact ⟨rfl, by omega⟩
      · cases h
    · rintro ⟨heq, hlen⟩
      cases a with
      | nil => cases hlen
      | cons d a =>
        rw [cons_append] at heq
        obtain ⟨rfl, rfl⟩ := List.cons.inj heq
        rw [encode_cons, length_append] at hlen
        have htail : splitAtByte (a ++ b) (index + 1 - (charBytes c).length) = some (a, b) :=
          splitAtByte_eq_some.2 ⟨rfl, by omega⟩
        rw [if_pos (by omega), htail, Option.map_some]

theorem charBytes_ascii {c : Char} (h : c.toNat < 128) : charBytes c = [BitVec.ofNat 8 c.toNat] := by
  have hle : c.val.toNat ≤ 0x7f := Nat.le_of_lt_succ h
  unfold charBytes String.utf8EncodeChar
  rw [if_pos hle]
  rfl

theorem encode_ascii : ∀ {text : List Char}, (∀ c ∈ text, c.toNat < 128) → encode text = text.map fun c => BitVec.ofNat 8 c.toNat
  | [], _ => rfl
  | c :: text, h => by
    obtain ⟨hc, htext⟩ := forall_mem_cons.1 h
    rw [encode_cons, charBytes_ascii hc, encode_ascii htext]
    rfl

end Jwm.Utf8
