/-
The keymap a viewer describes to its host (`remote/x11_keymap.rs`): a digest for each keycode and one
for the modifiers. The wire form is exact.
-/
import Jwm.Data.ExactCodec

namespace Jwm.Remote

open List

def keyDigestLen : Nat := 3
def modifierDigestLen : Nat := 32
def minKeymapKeycode : Nat := 8
def maxEncodedKeymapLen : Nat := 2 + modifierDigestLen + (256 - minKeymapKeycode) * keyDigestLen

/-- `[u8; n]`. -/
abbrev ByteArr (n : Nat) := { bytes : List Byte // bytes.length = n }

/-- `[0; n]`. -/
def ByteArr.zero (n : Nat) : ByteArr n := ⟨List.replicate n 0, length_replicate ..⟩

/-- The fields are private, and no constructor describes modifiers without keys. -/
structure KeymapTable where
  minKeycode : Byte
  keys : List (ByteArr keyDigestLen)
  modifiers : ByteArr modifierDigestLen
  of_no_keys : keys = [] → minKeycode = 0 ∧ modifiers = .zero modifierDigestLen
deriving DecidableEq

variable {t u : KeymapTable}

namespace KeymapTable

def empty : KeymapTable := ⟨0, [], .zero _, fun _ => ⟨rfl, rfl⟩⟩

/-- The bytes `encode_into` appends. -/
def bytes (t : KeymapTable) : List Byte :=
  [t.minKeycode] ++ ([BitVec.ofNat 8 (min t.keys.length 255)] ++ (t.modifiers.1 ++ t.keys.flatMap Subtype.val))

def encodeInto (t : KeymapTable) (out : List Byte) : List Byte := out ++ t.bytes

/-- `chunks_exact` of whole digests. -/
def digests : (count : Nat) → (keys : List Byte) → keys.length = count * keyDigestLen → List (ByteArr keyDigestLen)
  | 0, _, _ => []
  | count + 1, keys, h =>
    ⟨keys.take keyDigestLen, by rw [length_take, h, Nat.succ_mul]; omega⟩ ::
      digests count (keys.drop keyDigestLen) (by rw [length_drop, h, Nat.succ_mul]; omega)

theorem digests_ne_nil : ∀ {count : Nat} (keys : List Byte) (h : keys.length = count * keyDigestLen), count ≠ 0 →
    digests count keys h ≠ []
  | 0, _, _, hcount => absurd rfl hcount
  | _ + 1, _, _, _ => cons_ne_nil _ _

section

variable {rest : List Byte} {count : Nat} (h : rest.length = modifierDigestLen + count * keyDigestLen)
include h

theorem length_keys : (rest.drop modifierDigestLen).length = count * keyDigestLen := by
  rw [length_drop, h, Nat.add_sub_cancel_left]

theorem length_modifiers : (rest.take modifierDigestLen).length = modifierDigestLen := by
  rw [length_take, h]
  exact Nat.min_eq_left (Nat.le_add_right _ _)

end

def decode : List Byte → Except String KeymapTable
  | minKeycode :: countByte :: rest =>
    let count := countByte.toNat
    if hlen : rest.length ≠ modifierDigestLen + count * keyDigestLen then
      .error "keymap description has an invalid length"
    else if hcount : count = 0 then
      if minKeycode ≠ 0 || rest.any (· != 0) then .error "an empty keymap description must be all zero"
      else .ok empty
    else if minKeycode.toNat < minKeymapKeycode || minKeycode.toNat + count > 256 then
      .error "keymap description has an invalid keycode range"
    else
      have hlen := Decidable.not_not.1 hlen
      .ok {
        minKeycode
        keys := digests count (rest.drop modifierDigestLen) (length_keys hlen)
        modifiers := ⟨rest.take modifierDigestLen, length_modifiers hlen⟩
        of_no_keys := fun h => absurd h (digests_ne_nil _ _ hcount) }
  | _ => .error "keymap description is truncated"

/-- A table that a keyboard has: none at all, or keycodes in the range of the protocol. -/
def Coherent (t : KeymapTable) : Prop :=
  t = empty ∨ (minKeymapKeycode ≤ t.minKeycode.toNat ∧ t.keys.length ≤ 256 - t.minKeycode.toNat)

/-! ## Exactness -/

theorem digests_spec : ∀ {count : Nat} {keys : List Byte} (h : keys.length = count * keyDigestLen),
    (digests count keys h).length = count ∧ (digests count keys h).flatMap Subtype.val = keys
  | 0, keys, h => ⟨rfl, (eq_nil_of_length_eq_zero (by rw [h, Nat.zero_mul])).symm⟩
  | count + 1, keys, h => by
    obtain ⟨hlen, hflat⟩ := @digests_spec count (keys.drop keyDigestLen)
      (by rw [length_drop, h, Nat.succ_mul]; omega)
    unfold digests
    rw [length_cons, hlen, flatMap_cons, hflat]
    exact ⟨rfl, take_append_drop ..⟩

theorem length_flatMap_val : ∀ keys : List (ByteArr keyDigestLen),
    (keys.flatMap Subtype.val).length = keys.length * keyDigestLen
  | [] => rfl
  | key :: keys => by
    rw [flatMap_cons, length_append, key.2, length_flatMap_val keys, length_cons, Nat.succ_mul, Nat.add_comm]

theorem digests_flatMap : ∀ {count : Nat} (keys : List (ByteArr keyDigestLen)) {bytes : List Byte}
    (h : bytes.length = count * keyDigestLen), keys.flatMap Subtype.val = bytes → digests count bytes h = keys
  | 0, [], _, _, _ => rfl
  | 0, key :: keys, _, h, heq => by
    have hlen := length_flatMap_val (key :: keys)
    rw [heq, h, length_cons, Nat.zero_mul, Nat.succ_mul] at hlen
    unfold keyDigestLen at hlen
    omega
  | count + 1, [], _, h, heq => by
    have hlen := length_flatMap_val []
    rw [heq, h, length_nil, Nat.zero_mul, Nat.succ_mul] at hlen
    unfold keyDigestLen at hlen
    omega
  | count + 1, key :: keys, bytes, h, heq => by
    subst heq
    have hrest : ((key :: keys).flatMap Subtype.val).drop keyDigestLen = keys.flatMap Subtype.val := by
      rw [flatMap_cons]
      exact drop_left' key.2
    have hfirst : ((key :: keys).flatMap Subtype.val).take keyDigestLen = key.1 := by
      rw [flatMap_cons]
      exact take_left' key.2
    exact cons_eq_cons.2 ⟨Subtype.ext hfirst, digests_flatMap keys _ hrest.symm⟩

theorem ext_of_fields (hm : t.minKeycode = u.minKeycode) (hk : t.keys = u.keys) (hd : t.modifiers = u.modifiers) : t = u := by
  obtain ⟨m, k, d, _⟩ := t
  obtain ⟨m', k', d', _⟩ := u
  simp only at hm hk hd
  subst hm hk hd
  rfl

theorem length_bytes (t : KeymapTable) : t.bytes.length = 2 + modifierDigestLen + t.keys.length * keyDigestLen := by
  unfold bytes
  rw [length_append, length_append, length_append, length_flatMap_val, t.modifiers.2, length_singleton,
    length_singleton]
  omega

theorem bytes_inj (h : t.bytes = u.bytes) : t = u := by
  have hlen := congrArg length h
  rw [length_bytes, length_bytes] at hlen
  have hcount : t.keys.length = u.keys.length := Nat.eq_of_mul_eq_mul_right (by decide) (Nat.add_left_cancel hlen)
  obtain ⟨hmin, h⟩ := append_inj h rfl
  obtain ⟨-, h⟩ := append_inj h rfl
  obtain ⟨hmodifiers, hkeys⟩ := append_inj h (by rw [t.modifiers.2, u.modifiers.2])
  have hlength := length_flatMap_val u.keys
  refine ext_of_fields (singleton_inj.1 hmin) ?_ (Subtype.ext hmodifiers)
  rw [← digests_flatMap t.keys hlength hkeys, digests_flatMap u.keys hlength rfl]

theorem decode_bytes (h : t.Coherent) : decode t.bytes = .ok t := by
  rcases h with rfl | ⟨hmin, hlen⟩
  · decide
  · have hne : t.keys ≠ [] := by
      intro h0
      rw [(t.of_no_keys h0).1] at hmin
      exact absurd hmin (by decide)
    have hpos : 0 < t.keys.length := length_pos_iff.2 hne
    unfold minKeymapKeycode at hmin
    have hcount : (BitVec.ofNat 8 (min t.keys.length 255)).toNat = t.keys.length := by
      rw [BitVec.toNat_ofNat]
      omega
    have hrest : (t.modifiers.1 ++ t.keys.flatMap Subtype.val).length = modifierDigestLen + t.keys.length * keyDigestLen := by
      rw [length_append, t.modifiers.2, length_flatMap_val]
    have hdrop : (t.modifiers.1 ++ t.keys.flatMap Subtype.val).drop modifierDigestLen = t.keys.flatMap Subtype.val :=
      drop_left' t.modifiers.2
    have htake : (t.modifiers.1 ++ t.keys.flatMap Subtype.val).take modifierDigestLen = t.modifiers.1 :=
      take_left' t.modifiers.2
    show decode (t.minKeycode :: BitVec.ofNat 8 (min t.keys.length 255) :: (t.modifiers.1 ++ t.keys.flatMap Subtype.val)) = _
    unfold decode
    simp only
    rw [dif_neg (by rw [hcount, hrest]; exact fun h => h rfl), dif_neg (by omega), if_neg]
    · refine congrArg Except.ok (ext_of_fields rfl (digests_flatMap _ _ hdrop.symm) (Subtype.ext htake))
    · simp only [Bool.or_eq_true, decide_eq_true_eq, not_or, Nat.not_lt]
      unfold minKeymapKeycode
      omega

theorem bytes_of_decode {payload : List Byte} (h : decode payload = .ok t) : t.Coherent ∧ t.bytes = payload := by
  match payload with
  | [] | [_] => cases h
  | minKeycode :: countByte :: rest =>
    unfold decode at h
    simp only at h
    split at h
    · cases h
    rename_i hlen
    rw [ne_eq, not_not] at hlen
    split at h
    · rename_i hcount
      split at h
      · cases h
      rename_i hzero
      obtain rfl := Except.ok.inj h
      simp only [Bool.or_eq_true, decide_eq_true_eq, ne_eq, not_or, not_not, Bool.not_eq_true, any_eq_false,
        bne_iff_ne] at hzero
      obtain ⟨hmin, hrest⟩ := hzero
      rw [hcount, Nat.zero_mul, Nat.add_zero] at hlen
      refine ⟨.inl rfl, ?_⟩
      have hbyte : countByte = 0 := BitVec.eq_of_toNat_eq hcount
      rw [hmin, hbyte, eq_replicate_of_mem hrest, hlen]
      rfl
    · rename_i hcount
      split at h
      · cases h
      rename_i hrange
      simp only [Bool.or_eq_true, decide_eq_true_eq, not_or, Nat.not_lt] at hrange
      obtain rfl := Except.ok.inj h
      have hkeys : (rest.drop modifierDigestLen).length = countByte.toNat * keyDigestLen := by
        rw [length_drop]
        omega
      obtain ⟨hn, hflat⟩ := digests_spec hkeys
      have hsmall : min countByte.toNat 255 = countByte.toNat := by
        have := countByte.isLt
        omega
      refine ⟨.inr ⟨hrange.1, ?_⟩, ?_⟩
      · show (digests _ _ hkeys).length ≤ 256 - minKeycode.toNat
        rw [hn]
        omega
      · show [minKeycode] ++ ([BitVec.ofNat 8 (min (digests _ _ hkeys).length 255)] ++
          (rest.take modifierDigestLen ++ (digests _ _ hkeys).flatMap Subtype.val)) = _
        rw [hflat, hn, hsmall, BitVec.ofNat_toNat, BitVec.setWidth_eq, take_append_drop]
        rfl

theorem prefixFree : PrefixFree decode := by
  refine PrefixFree.of_length (n := 2)
    (f := fun head => 2 + modifierDigestLen + (head.getD 1 0).toNat * keyDigestLen) fun {payload t} h => ?_
  match payload with
  | [] | [_] => cases h
  | minKeycode :: countByte :: rest =>
    unfold decode at h
    simp only at h
    split at h
    · cases h
    rename_i hlen
    rw [ne_eq, not_not] at hlen
    refine ⟨Nat.le_add_left .., ?_⟩
    show rest.length + 1 + 1 = 2 + modifierDigestLen + countByte.toNat * keyDigestLen
    omega

end KeymapTable

end Jwm.Remote
