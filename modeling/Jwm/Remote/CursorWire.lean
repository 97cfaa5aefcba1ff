/-
The cursor plane on the wire (`remote/cursor.rs`): shapes of premultiplied pixels, and positions in
the coordinates of a shared source. Both formats are exact.
-/
import Jwm.Data.ExactCodec
import Jwm.Remote.Frame

namespace Jwm.Remote

def maxCursorDimension : Nat := 256
def shapeHeader : Nat := 16
def positionLen : Nat := 37

/-- `chunks_exact`: the whole chunks of `n`. -/
def chunksExact {α : Type} (n : Nat) (l : List α) : List (List α) :=
  (List.range (l.length / n)).map fun i => slice l (i * n) (i * n + n)

/-! ## Shapes -/

structure CursorShape where
  id : BitVec 64
  width : BitVec 16
  height : BitVec 16
  hotspotX : BitVec 16
  hotspotY : BitVec 16
  rgba : List Byte
deriving DecidableEq

variable {payload : List Byte} {p : CursorPosition}

namespace CursorShape

def validate (s : CursorShape) : Except String Unit :=
  rejectIf (s.id = 0 || s.width = 0 || s.height = 0 || s.width.toNat > maxCursorDimension ||
    s.height.toNat > maxCursorDimension || s.hotspotX.toNat ≥ s.width.toNat || s.hotspotY.toNat ≥ s.height.toNat ||
    s.rgba.length != s.width.toNat * s.height.toNat * 4 ||
    (chunksExact 4 s.rgba).any fun p => (p.take 3).any fun v => v.toNat > (p.getD 3 0).toNat)
    "invalid cursor shape dimensions, hotspot or premultiplied pixels"

def bytes (s : CursorShape) : List Byte :=
  wordBytes s.id ++ (wordBytes s.width ++ (wordBytes s.height ++ (wordBytes s.hotspotX ++ (wordBytes s.hotspotY ++ s.rgba))))

def encode (s : CursorShape) : Except String (List Byte) := do
  s.validate
  return s.bytes

def decode (payload : List Byte) : Except String CursorShape := do
  rejectIf (payload.length < shapeHeader || payload.length > shapeHeader + maxCursorDimension ^ 2 * 4)
    "invalid cursor shape length"
  let shape : CursorShape := {
    id := readWord 64 (slice payload 0 8)
    width := readWord 16 (slice payload 8 10)
    height := readWord 16 (slice payload 10 12)
    hotspotX := readWord 16 (slice payload 12 14)
    hotspotY := readWord 16 (slice payload 14 16)
    rgba := payload.drop 16 }
  shape.validate
  return shape

variable {s : CursorShape}

theorem encode_eq_ok : s.encode = .ok payload ↔ s.validate = .ok () ∧ payload = s.bytes := by
  unfold encode
  rw [unit_bind_eq_ok, pure_eq_ok, eq_comm (a := payload)]

theorem length_bytes (h : s.validate = .ok ()) :
    shapeHeader ≤ s.bytes.length ∧ s.bytes.length ≤ shapeHeader + maxCursorDimension ^ 2 * 4 := by
  unfold validate at h
  simp only [rejectIf_eq_ok, Bool.or_eq_true, decide_eq_true_eq, bne_iff_ne, ne_eq, not_or, not_not, Nat.not_lt] at h
  obtain ⟨⟨⟨⟨⟨⟨-, hw⟩, hh⟩, -⟩, -⟩, hlen⟩, -⟩ := h
  have harea : s.width.toNat * s.height.toNat ≤ maxCursorDimension ^ 2 := by
    rw [Nat.pow_two]
    exact Nat.mul_le_mul hw hh
  have hall : s.bytes.length = 16 + s.rgba.length := by
    simp [bytes]
    omega
  rw [hall, hlen, shapeHeader]
  omega

theorem decode_eq_ok : decode payload = .ok s ↔ s.validate = .ok () ∧ payload = s.bytes := by
  unfold decode
  simp only [unit_bind_eq_ok, pure_eq_ok]
  refine ⟨fun ⟨hsize, hv, h⟩ => ?_, fun ⟨hv, hp⟩ => ?_⟩
  · subst h
    refine ⟨hv, ?_⟩
    simp only [rejectIf_eq_ok, Bool.or_eq_true, decide_eq_true_eq, not_or, Nat.not_lt] at hsize
    have hlen : 16 ≤ payload.length := hsize.1
    have h0 := drop_eq_word (w := 64) rfl (a := 0) (b := 8) rfl (by omega : 8 ≤ payload.length)
    have h8 := drop_eq_word (w := 16) rfl (a := 8) (b := 10) rfl (by omega : 10 ≤ payload.length)
    have h10 := drop_eq_word (w := 16) rfl (a := 10) (b := 12) rfl (by omega : 12 ≤ payload.length)
    have h12 := drop_eq_word (w := 16) rfl (a := 12) (b := 14) rfl (by omega : 14 ≤ payload.length)
    have h14 := drop_eq_word (w := 16) rfl (a := 14) (b := 16) rfl hlen
    rw [h8, h10, h12, h14] at h0
    exact h0
  · subst hp
    obtain ⟨hmin, hmax⟩ := length_bytes hv
    obtain ⟨hid, h8⟩ := word_next rfl (l := s.bytes) (a := 0) (b := 8) rfl rfl
    obtain ⟨hwidth, h10⟩ := word_next rfl (b := 10) h8 rfl
    obtain ⟨hheight, h12⟩ := word_next rfl (b := 12) h10 rfl
    obtain ⟨hx, h14⟩ := word_next rfl (b := 14) h12 rfl
    obtain ⟨hy, h16⟩ := word_next rfl (b := 16) h14 rfl
    rw [hid, hwidth, hheight, hx, hy, h16]
    refine ⟨?_, hv, rfl⟩
    simp only [rejectIf_eq_ok, Bool.or_eq_true, decide_eq_true_eq, not_or, Nat.not_lt]
    exact ⟨hmin, hmax⟩

theorem exact : ExactCodec encode decode :=
  ⟨fun h => decode_eq_ok.2 (encode_eq_ok.1 h), fun h => encode_eq_ok.2 (decode_eq_ok.1 h)⟩

end CursorShape

/-! ## Positions -/

structure CursorPosition where
  sequence : BitVec 64
  geometryEpoch : BitVec 64
  shapeId : BitVec 64
  sourceWidth : BitVec 16
  sourceHeight : BitVec 16
  /-- `i32`, as its two's complement. -/
  x : BitVec 32
  y : BitVec 32
  visible : Bool
deriving DecidableEq

namespace CursorPosition

def validate (p : CursorPosition) : Except String Unit := do
  validateDimensions p.sourceWidth.toNat p.sourceHeight.toNat
  rejectIf (p.geometryEpoch = 0 || p.shapeId = 0 ||
    (p.visible && (p.x.toInt < 0 || p.y.toInt < 0 || p.x.toInt ≥ p.sourceWidth.toNat || p.y.toInt ≥ p.sourceHeight.toNat)))
    "invalid cursor position or geometry identity"

def bytes (p : CursorPosition) : List Byte :=
  wordBytes p.sequence ++ (wordBytes p.geometryEpoch ++ (wordBytes p.shapeId ++ (wordBytes p.sourceWidth ++
    (wordBytes p.sourceHeight ++ (wordBytes p.x ++ (wordBytes p.y ++ [if p.visible then (1 : Byte) else 0]))))))

def encode (p : CursorPosition) : Except String (List Byte) := do
  p.validate
  return p.bytes

def decode (payload : List Byte) : Except String CursorPosition := do
  rejectIf (payload.length ≠ positionLen || (payload.getD 36 0).toNat > 1) "invalid cursor position length or visibility"
  let position : CursorPosition := {
    sequence := readWord 64 (slice payload 0 8)
    geometryEpoch := readWord 64 (slice payload 8 16)
    shapeId := readWord 64 (slice payload 16 24)
    sourceWidth := readWord 16 (slice payload 24 26)
    sourceHeight := readWord 16 (slice payload 26 28)
    x := readWord 32 (slice payload 28 32)
    y := readWord 32 (slice payload 32 36)
    visible := payload.getD 36 0 != 0 }
  position.validate
  return position

theorem encode_eq_ok : p.encode = .ok payload ↔ p.validate = .ok () ∧ payload = p.bytes := by
  unfold encode
  rw [unit_bind_eq_ok, pure_eq_ok, eq_comm (a := payload)]

theorem flagByte {b : Byte} (h : b.toNat ≤ 1) : (if b != 0 then (1 : Byte) else 0) = b := by
  have hb : b.toNat = 0 ∨ b.toNat = 1 := by omega
  rcases hb with hb | hb
  · rw [show b = 0 from BitVec.eq_of_toNat_eq hb]
    rfl
  · rw [show b = 1 from BitVec.eq_of_toNat_eq hb]
    rfl

theorem decode_eq_ok : decode payload = .ok p ↔ p.validate = .ok () ∧ payload = p.bytes := by
  unfold decode
  simp only [unit_bind_eq_ok, pure_eq_ok]
  refine ⟨fun ⟨hsize, hv, h⟩ => ?_, fun ⟨hv, hp⟩ => ?_⟩
  · subst h
    refine ⟨hv, ?_⟩
    simp only [rejectIf_eq_ok, Bool.or_eq_true, decide_eq_true_eq, not_or, ne_eq, not_not, Nat.not_lt] at hsize
    obtain ⟨hlen, hflag⟩ := hsize
    unfold positionLen at hlen
    have h0 := drop_eq_word (w := 64) rfl (a := 0) (b := 8) rfl (by omega : 8 ≤ payload.length)
    have h8 := drop_eq_word (w := 64) rfl (a := 8) (b := 16) rfl (by omega : 16 ≤ payload.length)
    have h16 := drop_eq_word (w := 64) rfl (a := 16) (b := 24) rfl (by omega : 24 ≤ payload.length)
    have h24 := drop_eq_word (w := 16) rfl (a := 24) (b := 26) rfl (by omega : 26 ≤ payload.length)
    have h26 := drop_eq_word (w := 16) rfl (a := 26) (b := 28) rfl (by omega : 28 ≤ payload.length)
    have h28 := drop_eq_word (w := 32) rfl (a := 28) (b := 32) rfl (by omega : 32 ≤ payload.length)
    have h32 := drop_eq_word (w := 32) rfl (a := 32) (b := 36) rfl (by omega : 36 ≤ payload.length)
    have h36 : payload.drop 36 = [payload.getD 36 0] := by
      rw [List.getD_eq_getElem?_getD, List.getElem?_eq_getElem (by omega), List.drop_eq_getElem_cons (by omega),
        List.drop_of_length_le (by omega)]
      rfl
    rw [h8, h16, h24, h26, h28, h32, h36] at h0
    simp only [bytes, flagByte hflag]
    exact h0
  · subst hp
    obtain ⟨hsequence, h8⟩ := word_next rfl (l := p.bytes) (a := 0) (b := 8) rfl rfl
    obtain ⟨hepoch, h16⟩ := word_next rfl (b := 16) h8 rfl
    obtain ⟨hid, h24⟩ := word_next rfl (b := 24) h16 rfl
    obtain ⟨hwidth, h26⟩ := word_next rfl (b := 26) h24 rfl
    obtain ⟨hheight, h28⟩ := word_next rfl (b := 28) h26 rfl
    obtain ⟨hx, h32⟩ := word_next rfl (b := 32) h28 rfl
    obtain ⟨hy, h36⟩ := word_next rfl (b := 36) h32 rfl
    have hlen : p.bytes.length = positionLen := by simp [bytes, positionLen]
    have hflag : p.bytes.getD 36 0 = if p.visible then (1 : Byte) else 0 := by
      rw [List.getD_eq_getElem?_getD, ← List.head?_drop, h36]
      rfl
    rw [hsequence, hepoch, hid, hwidth, hheight, hx, hy, hflag, hlen]
    have hvisible : ((if p.visible then (1 : Byte) else 0) != 0) = p.visible := by
      cases p.visible <;> rfl
    rw [hvisible]
    refine ⟨?_, hv, rfl⟩
    simp only [rejectIf_eq_ok, Bool.or_eq_true, decide_eq_true_eq, not_or, ne_eq, not_not, Nat.not_lt, true_and]
    cases p.visible <;> decide

theorem exact : ExactCodec encode decode :=
  ⟨fun h => decode_eq_ok.2 (encode_eq_ok.1 h), fun h => encode_eq_ok.2 (decode_eq_ok.1 h)⟩

end CursorPosition

end Jwm.Remote
