/-
Byte formats with exactly one encoding a value: what one side encodes the other decodes, and nothing
else decodes to it. The fields they are made of are words in network order and UTF-8 text.
-/
import Jwm.Data.Blit
import Jwm.Data.Check
import Mathlib.Data.List.Induction

namespace Jwm

open List

/-! ## Exact codecs -/

/-- The decoder accepts the encodings, and only those. -/
structure ExactCodec {α ε : Type} (encode : α → Except ε (List Byte)) (decode : List Byte → Except ε α) : Prop where
  decode_of_encode : ∀ {a : α} {bytes : List Byte}, encode a = .ok bytes → decode bytes = .ok a
  encode_of_decode : ∀ {bytes : List Byte} {a : α}, decode bytes = .ok a → encode a = .ok bytes

def PrefixFree {α ε : Type} (decode : List Byte → Except ε α) : Prop :=
  ∀ {bytes extension : List Byte} {a b : α}, decode bytes = .ok a → decode (bytes ++ extension) = .ok b → extension = []

section Codec

variable {α β ε : Type} {encode : α → Except ε (List Byte)} {decode : List Byte → Except ε α}

theorem PrefixFree.of_length {n : Nat} {f : List Byte → Nat}
    (h : ∀ {bytes : List Byte} {a : α}, decode bytes = .ok a → n ≤ bytes.length ∧ bytes.length = f (bytes.take n)) :
    PrefixFree decode := by
  intro bytes extension a b ha hb
  obtain ⟨hn, hlen⟩ := h ha
  obtain ⟨-, hlen'⟩ := h hb
  rw [take_append_of_le_length hn, ← hlen, length_append] at hlen'
  exact eq_nil_of_length_eq_zero (by omega)

end Codec

/-! ## Lossy codecs -/

/-- The decoder reads the canonical value, and the encoder tells a value from its canonical one by nothing. -/
structure CanonicalCodec {α β : Type} (encode : α → β) (decode : β → α) (canonical : α → α) : Prop where
  decode_encode : ∀ a, decode (encode a) = canonical a
  encode_canonical : ∀ a, encode (canonical a) = encode a

namespace CanonicalCodec

variable {α β : Type} {encode : α → β} {decode : β → α} {canonical : α → α} (h : CanonicalCodec encode decode canonical)

include h

theorem canonical_canonical (a : α) : canonical (canonical a) = canonical a := by
  rw [← h.decode_encode, h.encode_canonical, h.decode_encode]

theorem encode_eq_iff {a b : α} : encode a = encode b ↔ canonical a = canonical b := by
  refine ⟨fun e => ?_, fun e => ?_⟩
  · rw [← h.decode_encode, ← h.decode_encode, e]
  · rw [← h.encode_canonical, e, h.encode_canonical]

end CanonicalCodec

/-! ## Words -/

/-- `to_be_bytes` of an unsigned word. -/
def wordBytes {w : Nat} (v : BitVec w) : List Byte := toBeBytes (w / 8) v.toNat

/-- `from_be_bytes` of the word's bytes. -/
def readWord (w : Nat) (bytes : List Byte) : BitVec w := BitVec.ofNat w (fromBeBytes bytes)

variable {w : Nat}

@[simp] theorem length_wordBytes (v : BitVec w) : (wordBytes v).length = w / 8 := length_toBeBytes ..

theorem fromBeBytes_append (bytes : List Byte) (b : Byte) : fromBeBytes (bytes ++ [b]) = fromBeBytes bytes * 256 + b.toNat := by
  unfold fromBeBytes
  rw [foldl_append]
  rfl

theorem toBeBytes_fromBeBytes (bytes : List Byte) :
    fromBeBytes bytes < 256 ^ bytes.length ∧ toBeBytes bytes.length (fromBeBytes bytes) = bytes := by
  induction bytes using reverseRecOn with
  | nil => exact ⟨Nat.one_pos, rfl⟩
  | append_singleton bytes b ih =>
    obtain ⟨hlt, heq⟩ := ih
    have hb : b.toNat < 256 := b.isLt
    rw [fromBeBytes_append, length_append, length_singleton]
    refine ⟨by rw [Nat.pow_succ]; omega, ?_⟩
    rw [toBeBytes, Nat.add_comm, Nat.add_mul_div_right _ _ (by decide), Nat.div_eq_of_lt hb, Nat.zero_add, heq]
    congr 2
    refine BitVec.eq_of_toNat_eq ?_
    rw [BitVec.toNat_ofNat, Nat.add_mul_mod_self_right, Nat.mod_eq_of_lt hb]

theorem pow_bytes (hw : w % 8 = 0) : 256 ^ (w / 8) = 2 ^ w := by
  rw [show (256 : Nat) = 2 ^ 8 from rfl, ← Nat.pow_mul]
  congr 1
  omega

theorem readWord_wordBytes (hw : w % 8 = 0) (v : BitVec w) : readWord w (wordBytes v) = v := by
  unfold readWord wordBytes
  rw [fromBeBytes_toBeBytes (by rw [pow_bytes hw]; exact v.isLt), BitVec.ofNat_toNat, BitVec.setWidth_eq]

variable {bytes : List Byte}

theorem wordBytes_readWord (hw : w % 8 = 0) (h : bytes.length = w / 8) : wordBytes (readWord w bytes) = bytes := by
  obtain ⟨hlt, heq⟩ := toBeBytes_fromBeBytes bytes
  unfold wordBytes readWord
  rw [h, pow_bytes hw] at hlt
  rw [BitVec.toNat_ofNat, Nat.mod_eq_of_lt hlt, ← h, heq]

/-! ## Fields -/

variable {a b offset after : Nat}

section Fields

variable {α : Type}

theorem slice_append_drop (l : List α) (h : a ≤ b) : slice l a b ++ l.drop b = l.drop a := by
  unfold slice
  rw [show b = a + (b - a) by omega, ← drop_drop, Nat.add_sub_cancel_left, take_append_drop]

theorem slice_length (l : List α) (a : Nat) : slice l a l.length = l.drop a := by
  unfold slice
  rw [← length_drop, take_length]

theorem drop_eq_word {w : Nat} (hw : w % 8 = 0) {bytes : List Byte} (hab : b = a + w / 8)
    (hb : b ≤ bytes.length) : bytes.drop a = wordBytes (readWord w (slice bytes a b)) ++ bytes.drop b := by
  rw [wordBytes_readWord hw (by rw [length_slice hb]; omega), slice_append_drop _ (by omega)]

theorem word_next {w : Nat} (hw : w % 8 = 0) {l rest : List Byte} {v : BitVec w}
    (h : l.drop a = wordBytes v ++ rest) (hab : b = a + w / 8) :
    readWord w (slice l a b) = v ∧ l.drop b = rest := by
  subst hab
  refine ⟨?_, ?_⟩
  · unfold slice
    rw [h, Nat.add_sub_cancel_left, take_left' (length_wordBytes v), readWord_wordBytes hw]
  · rw [← drop_drop, h, drop_left' (length_wordBytes v)]

theorem wordBytes_inj {w : Nat} (hw : w % 8 = 0) {u v : BitVec w} (h : wordBytes u = wordBytes v) : u = v := by
  rw [← readWord_wordBytes hw u, h, readWord_wordBytes hw]

theorem getD_of_drop {l rest : List α} {x d : α} {n : Nat} (h : l.drop n = x :: rest) : l.getD n d = x := by
  rw [getD_eq_getElem?_getD, ← head?_drop, h]
  rfl

theorem drop_eq_cons {l : List α} {n : Nat} (d : α) (h : n < l.length) : l.drop n = l.getD n d :: l.drop (n + 1) := by
  rw [getD_eq_getElem?_getD, getElem?_eq_getElem h]
  exact drop_eq_getElem_cons h

end Fields

/-! ## Reading at an offset -/

/-- The bytes stand at the offset, and end at the other one. -/
def ReadsAt (payload : List Byte) (offset : Nat) (bytes : List Byte) (after : Nat) : Prop :=
  (∃ rest, payload.drop offset = bytes ++ rest) ∧ after = offset + bytes.length

variable {payload : List Byte}

theorem ReadsAt.nil : ReadsAt payload offset [] after ↔ after = offset :=
  ⟨fun h => h.2, fun h => ⟨⟨payload.drop offset, rfl⟩, h⟩⟩

theorem ReadsAt.append {a b : List Byte} : ReadsAt payload offset (a ++ b) after ↔
    ReadsAt payload offset a (offset + a.length) ∧ ReadsAt payload (offset + a.length) b after := by
  unfold ReadsAt
  rw [length_append, ← drop_drop]
  refine ⟨fun ⟨⟨rest, hr⟩, ha⟩ => ?_, fun ⟨⟨⟨rest, hr⟩, _⟩, ⟨rest', hr'⟩, ha⟩ => ?_⟩
  · rw [append_assoc] at hr
    exact ⟨⟨⟨_, hr⟩, rfl⟩, ⟨rest, by rw [hr, drop_left]⟩, by omega⟩
  · rw [hr, drop_left] at hr'
    exact ⟨⟨rest', by rw [hr, hr', append_assoc]⟩, by omega⟩

theorem ReadsAt.all (h : offset ≤ payload.length) :
    ReadsAt payload offset bytes payload.length ↔ payload.drop offset = bytes := by
  refine ⟨fun ⟨⟨rest, hr⟩, ha⟩ => ?_, fun hb => ⟨⟨[], by rw [hb, append_nil]⟩, ?_⟩⟩
  · have hlen := congrArg length hr
    rw [length_drop, length_append] at hlen
    rw [hr, eq_nil_of_length_eq_zero (l := rest) (by omega), append_nil]
  · rw [← hb, length_drop]
    omega

/-! ## Text -/

/-- `str::as_bytes`. -/
def utf8Bytes (s : String) : List Byte := s.toByteArray.data.toList.map UInt8.toBitVec

/-- `str::from_utf8`. -/
def fromUtf8 (bytes : List Byte) : Except String String :=
  match String.fromUTF8? ⟨(bytes.map UInt8.ofBitVec).toArray⟩ with
  | some s => .ok s
  | none => .error "invalid utf-8 sequence"

@[simp] theorem length_utf8Bytes (s : String) : (utf8Bytes s).length = s.utf8ByteSize := length_map ..

theorem fromUtf8_eq_ok {s : String} : fromUtf8 bytes = .ok s ↔ utf8Bytes s = bytes := by
  unfold fromUtf8 String.fromUTF8?
  refine ⟨fun h => ?_, ?_⟩
  · split at h
    · rename_i s' hs
      obtain rfl := Except.ok.inj h
      split at hs
      · obtain rfl := Option.some.inj hs
        simp [utf8Bytes, String.fromUTF8, Function.comp_def]
      · cases hs
    · cases h
  · rintro rfl
    have hround : (⟨((utf8Bytes s).map UInt8.ofBitVec).toArray⟩ : ByteArray) = s.toByteArray := by
      simp [utf8Bytes, Function.comp_def]
    rw [hround, dif_pos s.isValidUTF8]
    rfl

end Jwm
