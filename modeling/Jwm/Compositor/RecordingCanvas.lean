/-
Sizes of a recording (`compositor_common/recording_nv12.rs`): what the encoder is started with and where a region adjusted later lands
on that canvas. Arithmetic is checked, so that a value stands for a computation in which nothing overflows.
-/
import Jwm.Data.Placement
import Jwm.Data.Rounding
import Mathlib.Tactic.Ring

namespace Jwm.Recording

open Option Word BitVec

/-- A width and a height in pixels. -/
structure Size where
  w : BitVec 32
  h : BitVec 32
  deriving DecidableEq

structure CanvasRect where
  x : BitVec 32
  y : BitVec 32
  width : BitVec 32
  height : BitVec 32
  deriving DecidableEq

def nv12AlignedSize (width height : BitVec 32) : Size := ⟨width &&& ~~~3#32, height &&& ~~~1#32⟩

def minEncodedHeight : BitVec 32 := 64

def recordingOutputSize (region : Size) (maxHeight : BitVec 32) : Option Size :=
  if region.w = 0 ∨ region.h = 0 then some ⟨0, 0⟩
  else
    let native := nv12AlignedSize region.w region.h
    if maxHeight = 0 ∨ maxHeight < minEncodedHeight ∨ region.h ≤ maxHeight then some native
    else do
      let product ← Word.checkedMul (region.w.setWidth 64) (maxHeight.setWidth 64)
      let sum ← Word.checkedAdd product (region.h.setWidth 64 / 2)
      let scaledW := sum / region.h.setWidth 64
      let scaled := nv12AlignedSize ((Word.maxOf scaledW 1).setWidth 32) maxHeight
      return if scaled.w = 0 ∨ scaled.h = 0 then native else scaled

def scaleCanvasExtent (extent : BitVec 32) (numerator denominator : BitVec 128) : Option (BitVec 32) := do
  let product ← Word.checkedMul (extent.setWidth 128) numerator
  let sum ← Word.checkedAdd product (denominator / 2)
  let scaled := sum / Word.maxOf denominator 1
  let narrowed := if scaled.toNat < 2 ^ 32 then scaled.setWidth 32 else extent
  return clampTo narrowed 1 (Word.maxOf extent 1)

/-- The width and the height of the rectangle, of which one is the canvas's own. -/
def fittedSize (start region canvas : Size) : Option Size := do
  let across ← Word.checkedMul (start.w.setWidth 64) (region.h.setWidth 64)
  let down ← Word.checkedMul (start.h.setWidth 64) (region.w.setWidth 64)
  if across ≤ down then
    let numerator ← Word.checkedMul (region.h.setWidth 128) (start.w.setWidth 128)
    let denominator ← Word.checkedMul (start.h.setWidth 128) (region.w.setWidth 128)
    let height ← scaleCanvasExtent canvas.h numerator denominator
    return ⟨canvas.w, height⟩
  else
    let numerator ← Word.checkedMul (region.w.setWidth 128) (start.h.setWidth 128)
    let denominator ← Word.checkedMul (start.w.setWidth 128) (region.h.setWidth 128)
    let width ← scaleCanvasExtent canvas.w numerator denominator
    return ⟨width, canvas.h⟩

def recordingCanvasRect (start region canvas : Size) : Option CanvasRect :=
  if [start.w, start.h, region.w, region.h, canvas.w, canvas.h].contains 0 then some ⟨0, 0, canvas.w, canvas.h⟩
  else do
    let fitted ← fittedSize start region canvas
    let x ← checkedSub canvas.w fitted.w
    let y ← checkedSub canvas.h fitted.h
    return ⟨x / 2, y / 2, fitted.w, fitted.h⟩

/-! ## Output sizes -/

theorem toNat_nv12AlignedSize_w (width height : BitVec 32) : (nv12AlignedSize width height).w.toNat = width.toNat / 4 * 4 :=
  toNat_and_not_pred (a := 4#32) (k := 2) rfl

theorem toNat_nv12AlignedSize_h (width height : BitVec 32) : (nv12AlignedSize width height).h.toNat = height.toNat / 2 * 2 :=
  toNat_and_not_pred (a := 2#32) (k := 1) rfl

/-- A size the NV12 layout can express, within the region, and a picture whenever the region has one. -/
structure Encodable (region out : Size) : Prop where
  width_dvd : 4 ∣ out.w.toNat
  height_dvd : 2 ∣ out.h.toNat
  width_le : out.w.toNat ≤ region.w.toNat
  height_le : out.h.toNat ≤ region.h.toNat
  pos : 4 ≤ region.w.toNat → 2 ≤ region.h.toNat → 0 < out.w.toNat ∧ 0 < out.h.toNat

theorem encodable_nv12AlignedSize (region : Size) : Encodable region (nv12AlignedSize region.w region.h) := by
  have hw := toNat_nv12AlignedSize_w region.w region.h
  have hh := toNat_nv12AlignedSize_h region.w region.h
  constructor <;> omega

theorem eq_zero_iff {w : Nat} (x : BitVec w) : x = 0 ↔ x.toNat = 0 := by
  simp [← toNat_inj]

theorem mul_lt_two_pow_64 (x y : BitVec 32) : x.toNat * y.toNat ≤ (2 ^ 32 - 1) * (2 ^ 32 - 1) :=
  Nat.mul_le_mul (by have := x.isLt; omega) (by have := y.isLt; omega)

theorem recordingOutputSize_encodable (region : Size) (maxHeight : BitVec 32) :
    ∃ out, recordingOutputSize region maxHeight = some out ∧ Encodable region out := by
  unfold recordingOutputSize
  by_cases hempty : region.w = 0 ∨ region.h = 0
  · rw [if_pos hempty]
    refine ⟨_, rfl, ?_⟩
    rw [eq_zero_iff, eq_zero_iff] at hempty
    constructor <;> simp
    omega
  rw [if_neg hempty]
  by_cases hcap : maxHeight = 0 ∨ maxHeight < minEncodedHeight ∨ region.h ≤ maxHeight
  · rw [if_pos hcap]
    exact ⟨_, rfl, encodable_nv12AlignedSize region⟩
  rw [if_neg hcap]
  have hheight : maxHeight.toNat < region.h.toNat := by
    rw [← BitVec.lt_def, ← BitVec.not_le]
    exact fun hle => hcap (.inr (.inr hle))
  have hpos : 0 < region.w.toNat := by
    rw [Nat.pos_iff_ne_zero]
    exact fun h => hempty (.inl ((eq_zero_iff _).2 h))
  have hregion : (region.h.setWidth 64).toNat = region.h.toNat := toNat_setWidth_of_le (by decide)
  have hbound := mul_lt_two_pow_64 region.w maxHeight
  obtain ⟨product, hproduct, hproductNat⟩ := exists_checkedMul (x := region.w.setWidth 64) (y := maxHeight.setWidth 64)
    (by rw [toNat_setWidth_of_le (by decide), toNat_setWidth_of_le (by decide)]; omega)
  rw [toNat_setWidth_of_le (by decide), toNat_setWidth_of_le (by decide)] at hproductNat
  have hhalf : (region.h.setWidth 64 / 2).toNat = region.h.toNat / 2 := by
    rw [toNat_udiv, hregion]
    rfl
  obtain ⟨sum, hsum, hsumNat⟩ := exists_checkedAdd (x := product) (y := region.h.setWidth 64 / 2) (by
    have := region.h.isLt
    rw [hproductNat, hhalf]
    omega)
  rw [hproductNat, hhalf] at hsumNat
  -- the cap is below the region's height, so that the width does not grow
  have hscaled : (sum / region.h.setWidth 64).toNat = roundDiv (region.w.toNat * maxHeight.toNat) region.h.toNat := by
    rw [toNat_udiv, hregion, hsumNat]
    rfl
  have hle : roundDiv (region.w.toNat * maxHeight.toNat) region.h.toNat ≤ region.w.toNat :=
    roundDiv_le (by omega) (Nat.mul_le_mul_left _ hheight.le)
  have hwidth : ((Word.maxOf (sum / region.h.setWidth 64) 1).setWidth 32).toNat ≤ region.w.toNat := by
    rw [toNat_setWidth, toNat_maxOf, hscaled]
    refine (Nat.mod_le _ _).trans ?_
    exact Nat.max_le.2 ⟨hle, hpos⟩
  rw [hproduct, bind_eq_bind, bind_some, hsum, bind_some]
  refine ⟨_, rfl, ?_⟩
  generalize hscaledSize : nv12AlignedSize ((Word.maxOf (sum / region.h.setWidth 64) 1).setWidth 32) maxHeight = scaled
  by_cases hzero : scaled.w = 0 ∨ scaled.h = 0
  · rw [if_pos hzero]
    exact encodable_nv12AlignedSize region
  · rw [if_neg hzero]
    have hw := toNat_nv12AlignedSize_w ((Word.maxOf (sum / region.h.setWidth 64) 1).setWidth 32) maxHeight
    have hh := toNat_nv12AlignedSize_h ((Word.maxOf (sum / region.h.setWidth 64) 1).setWidth 32) maxHeight
    rw [hscaledSize] at hw hh
    rw [eq_zero_iff, eq_zero_iff] at hzero
    constructor <;> omega

/-! ## The canvas rectangle -/

/-- The extent left on the axis that does not span the canvas: centred, and the ideal one up to half a pixel. -/
structure OtherAxis (offset size extent : Nat) (ideal : ℚ) : Prop where
  centred : Centred offset size extent
  near : 1 / 2 ≤ ideal → |(size : ℚ) - ideal| ≤ 1 / 2
  least : ideal < 1 / 2 → size = 1

/-- The region lies on the canvas in the proportions the start region had. -/
structure FitsUndistorted (start region canvas : Size) (r : CanvasRect) : Prop where
  pos : 0 < r.width.toNat ∧ 0 < r.height.toNat
  inside : r.x.toNat + r.width.toNat ≤ canvas.w.toNat ∧ r.y.toNat + r.height.toNat ≤ canvas.h.toNat
  spans :
    (r.x = 0 ∧ r.width = canvas.w ∧ OtherAxis r.y.toNat r.height.toNat canvas.h.toNat
      (canvas.h.toNat * ((region.h.toNat / region.w.toNat) / (start.h.toNat / start.w.toNat)))) ∨
    (r.y = 0 ∧ r.height = canvas.h ∧ OtherAxis r.x.toNat r.width.toNat canvas.w.toNat
      (canvas.w.toNat * ((region.w.toNat / region.h.toNat) / (start.w.toNat / start.h.toNat))))
  whole : start.w.toNat * region.h.toNat = start.h.toNat * region.w.toNat → r = ⟨0, 0, canvas.w, canvas.h⟩

def Size.Positive (s : Size) : Prop := 0 < s.w.toNat ∧ 0 < s.h.toNat

theorem scaleCanvasExtent_eq (extent : BitVec 32) (numerator denominator : BitVec 128) (hextent : 0 < extent.toNat)
    (hpos : 0 < denominator.toNat) (hle : numerator.toNat ≤ denominator.toNat) (hbound : denominator.toNat < 2 ^ 64) :
    ∃ size, scaleCanvasExtent extent numerator denominator = some size ∧
      size.toNat = max 1 (roundDiv (extent.toNat * numerator.toNat) denominator.toNat) := by
  have hlt := extent.isLt
  have hwide : (extent.setWidth 128).toNat = extent.toNat := toNat_setWidth_of_le (by decide)
  have hmul : extent.toNat * numerator.toNat < 2 ^ 96 :=
    (Nat.mul_le_mul_left _ (hle.trans hbound.le)).trans_lt (by omega)
  obtain ⟨product, hproduct, hproductNat⟩ := exists_checkedMul (x := extent.setWidth 128) (y := numerator)
    (by rw [hwide]; omega)
  rw [hwide] at hproductNat
  have hhalf : (denominator / 2).toNat = denominator.toNat / 2 := toNat_udiv ..
  obtain ⟨sum, hsum, hsumNat⟩ := exists_checkedAdd (x := product) (y := denominator / 2)
    (by rw [hproductNat, hhalf]; omega)
  rw [hproductNat, hhalf] at hsumNat
  have hmax : (Word.maxOf denominator 1).toNat = denominator.toNat := by
    rw [toNat_maxOf]
    exact Nat.max_eq_left hpos
  have hscaled : (sum / Word.maxOf denominator 1).toNat = roundDiv (extent.toNat * numerator.toNat) denominator.toNat := by
    rw [toNat_udiv, hmax, hsumNat]
    rfl
  have hround : roundDiv (extent.toNat * numerator.toNat) denominator.toNat ≤ extent.toNat :=
    roundDiv_le hpos (Nat.mul_le_mul_left _ hle)
  unfold scaleCanvasExtent
  rw [hproduct, bind_eq_bind, bind_some, hsum, bind_some]
  refine ⟨_, rfl, ?_⟩
  -- what was rounded is at most the extent, so that only the lower end of the clamp can act
  rw [if_pos (by omega), toNat_clampTo, toNat_maxOf, toNat_setWidth, hscaled, Nat.mod_eq_of_lt (by omega)]
  generalize roundDiv (extent.toNat * numerator.toNat) denominator.toNat = rounded at hround
  have hone : (1 : BitVec 32).toNat = 1 := rfl
  rw [hone]
  split <;> omega

theorem otherAxis_of_roundDiv {extent size numerator denominator : Nat} (hextent : 0 < extent) (hpos : 0 < denominator)
    (hle : numerator ≤ denominator) (hsize : size = max 1 (roundDiv (extent * numerator) denominator)) :
    OtherAxis ((extent - size) / 2) size extent (extent * (numerator / denominator)) := by
  have hround : roundDiv (extent * numerator) denominator ≤ extent := roundDiv_le hpos (Nat.mul_le_mul_left _ hle)
  have hpos' : (0 : ℚ) < denominator := by exact_mod_cast hpos
  have hideal : (extent : ℚ) * (numerator / denominator) = ((extent * numerator : Nat) : ℚ) / denominator := by
    rw [Nat.cast_mul, mul_div_assoc]
  -- the quotient rounds to nothing exactly when it is below half a pixel
  have hsmall : (extent : ℚ) * (numerator / denominator) < 1 / 2 ↔ roundDiv (extent * numerator) denominator = 0 := by
    rw [roundDiv_eq_zero hpos, hideal, div_lt_iff₀ hpos', ← Nat.cast_lt (α := ℚ), Nat.cast_mul]
    constructor <;> intro h <;> push_cast at h ⊢ <;> linarith
  refine ⟨centred_half (by omega), fun h => ?_, fun h => ?_⟩
  · have hne : roundDiv (extent * numerator) denominator ≠ 0 := fun hzero => absurd (hsmall.2 hzero) (not_lt.2 h)
    rw [hsize, Nat.max_eq_right (Nat.one_le_iff_ne_zero.2 hne), hideal]
    exact abs_roundDiv_sub_le hpos
  · rw [hsize, hsmall.1 h]
    rfl

theorem exists_checkedMul_setWidth (x y : BitVec 32) {w : Nat} (hw : 64 ≤ w) :
    ∃ z, Word.checkedMul (x.setWidth w) (y.setWidth w) = some z ∧ z.toNat = x.toNat * y.toNat := by
  have hbound := mul_lt_two_pow_64 x y
  have hpow : 2 ^ 64 ≤ 2 ^ w := Nat.pow_le_pow_right Nat.two_pos hw
  obtain ⟨z, hz, hzNat⟩ := exists_checkedMul (x := x.setWidth w) (y := y.setWidth w)
    (by rw [toNat_setWidth_of_le (by omega), toNat_setWidth_of_le (by omega)]; omega)
  rw [toNat_setWidth_of_le (by omega), toNat_setWidth_of_le (by omega)] at hzNat
  exact ⟨z, hz, hzNat⟩

section

variable {start region canvas : Size} (hstart : start.Positive) (hregion : region.Positive) (hcanvas : canvas.Positive)
include hstart hregion hcanvas

theorem fittedSize_eq : ∃ fitted, fittedSize start region canvas = some fitted ∧
      ((start.w.toNat * region.h.toNat ≤ start.h.toNat * region.w.toNat ∧ fitted.w = canvas.w ∧ fitted.h.toNat =
        max 1 (roundDiv (canvas.h.toNat * (region.h.toNat * start.w.toNat)) (start.h.toNat * region.w.toNat))) ∨
      (start.h.toNat * region.w.toNat < start.w.toNat * region.h.toNat ∧ fitted.h = canvas.h ∧ fitted.w.toNat =
        max 1 (roundDiv (canvas.w.toNat * (region.w.toNat * start.h.toNat)) (start.w.toNat * region.h.toNat)))) := by
  obtain ⟨across, hacross, hacrossNat⟩ := exists_checkedMul_setWidth start.w region.h (Nat.le_refl 64)
  obtain ⟨down, hdown, hdownNat⟩ := exists_checkedMul_setWidth start.h region.w (Nat.le_refl 64)
  obtain ⟨tall, htall, htallNat⟩ := exists_checkedMul_setWidth region.h start.w (by decide : 64 ≤ 128)
  obtain ⟨wide, hwide, hwideNat⟩ := exists_checkedMul_setWidth region.w start.h (by decide : 64 ≤ 128)
  obtain ⟨down', hdown', hdownNat'⟩ := exists_checkedMul_setWidth start.h region.w (by decide : 64 ≤ 128)
  obtain ⟨across', hacross', hacrossNat'⟩ := exists_checkedMul_setWidth start.w region.h (by decide : 64 ≤ 128)
  have hdownLt : down'.toNat < 2 ^ 64 := hdownNat' ▸ (mul_lt_two_pow_64 start.h region.w).trans_lt (by decide)
  have hacrossLt : across'.toNat < 2 ^ 64 := hacrossNat' ▸ (mul_lt_two_pow_64 start.w region.h).trans_lt (by decide)
  unfold fittedSize
  rw [hacross, bind_eq_bind, bind_some, hdown, bind_some]
  by_cases hle : across ≤ down
  · have hle' : start.w.toNat * region.h.toNat ≤ start.h.toNat * region.w.toNat := by
      rw [← hacrossNat, ← hdownNat]
      exact le_def.1 hle
    obtain ⟨height, hheight, hheightNat⟩ := scaleCanvasExtent_eq canvas.h tall down'
      hcanvas.2 (hdownNat' ▸ Nat.mul_pos hstart.2 hregion.1) (by rw [htallNat, hdownNat', Nat.mul_comm]; exact hle') hdownLt
    rw [if_pos hle, htall, bind_eq_bind, bind_some, hdown', bind_some, hheight]
    exact ⟨_, rfl, .inl ⟨hle', rfl, by rw [hheightNat, htallNat, hdownNat']⟩⟩
  · have hlt : start.h.toNat * region.w.toNat < start.w.toNat * region.h.toNat := by
      rw [← hacrossNat, ← hdownNat]
      exact BitVec.lt_def.1 (BitVec.not_le.1 hle)
    obtain ⟨width, hwidth, hwidthNat⟩ := scaleCanvasExtent_eq canvas.w wide across'
      hcanvas.1 (hacrossNat' ▸ Nat.mul_pos hstart.1 hregion.2) (by rw [hwideNat, hacrossNat', Nat.mul_comm]; exact hlt.le) hacrossLt
    rw [if_neg hle, hwide, bind_eq_bind, bind_some, hacross', bind_some, hwidth]
    exact ⟨_, rfl, .inr ⟨hlt, rfl, by rw [hwidthNat, hwideNat, hacrossNat']⟩⟩

theorem not_contains_zero : [start.w, start.h, region.w, region.h, canvas.w, canvas.h].contains 0 = false := by
  have hne : ∀ x : BitVec 32, 0 < x.toNat → ¬ 0#32 = x := fun x hx heq => absurd ((eq_zero_iff x).1 heq.symm) hx.ne'
  simp [hne _ hstart.1, hne _ hstart.2, hne _ hregion.1, hne _ hregion.2, hne _ hcanvas.1, hne _ hcanvas.2]

end

theorem toNat_half (x : BitVec 32) : (x / 2).toNat = x.toNat / 2 := toNat_udiv ..

theorem half_sub_self (x : BitVec 32) {z : BitVec 32} (h : z.toNat = x.toNat - x.toNat) : z / 2 = 0 := by
  rw [eq_zero_iff, toNat_half, h, Nat.sub_self]

/-- A region of any shape lands inside the canvas in the start region's proportions, along one axis from edge to edge. -/
theorem recordingCanvasRect_fits {start region canvas : Size} (hstart : start.Positive) (hregion : region.Positive)
    (hcanvas : canvas.Positive) :
    ∃ r, recordingCanvasRect start region canvas = some r ∧ FitsUndistorted start region canvas r := by
  obtain ⟨fitted, hfitted, haxis⟩ := fittedSize_eq hstart hregion hcanvas
  unfold recordingCanvasRect
  rw [not_contains_zero hstart hregion hcanvas, if_neg Bool.false_ne_true, hfitted, bind_eq_bind, bind_some]
  rcases haxis with ⟨hle, hw, hh⟩ | ⟨hlt, hh, hw⟩
  · have hother := otherAxis_of_roundDiv hcanvas.2 (Nat.mul_pos hstart.2 hregion.1) (by rw [Nat.mul_comm]; exact hle) hh
    have hheight : fitted.h.toNat ≤ canvas.h.toNat := (Nat.le_add_left _ _).trans hother.centred.within
    obtain ⟨x, hx, hxNat⟩ := exists_checkedSub (x := canvas.w) (y := fitted.w) (by rw [hw])
    obtain ⟨y, hy, hyNat⟩ := exists_checkedSub hheight
    rw [hx, bind_eq_bind, bind_some, hy]
    refine ⟨_, rfl, ?_⟩
    have hx0 : x / 2 = 0 := half_sub_self canvas.w (by rw [hxNat, hw])
    have hyHalf : (y / 2).toNat = (canvas.h.toNat - fitted.h.toNat) / 2 := by rw [toNat_half, hyNat]
    constructor
    · exact ⟨hw ▸ hcanvas.1, by dsimp only; omega⟩
    · rw [hx0, hyHalf, hw]
      exact ⟨by simp, hother.centred.within⟩
    · refine .inl ⟨hx0, hw, ?_⟩
      rw [div_div_div_eq, mul_comm (region.w.toNat : ℚ), ← Nat.cast_mul, ← Nat.cast_mul, hyHalf]
      exact hother
    · intro haspect
      have hfull : fitted.h = canvas.h := by
        apply eq_of_toNat_eq
        rw [hh, Nat.mul_comm region.h.toNat, haspect, roundDiv_mul (Nat.mul_pos hstart.2 hregion.1)]
        exact Nat.max_eq_right hcanvas.2
      have hy0 : y / 2 = 0 := half_sub_self canvas.h (by rw [hyNat, hfull])
      rw [hx0, hy0, hw, hfull]
  · have hother := otherAxis_of_roundDiv hcanvas.1 (Nat.mul_pos hstart.1 hregion.2) (by rw [Nat.mul_comm]; exact hlt.le) hw
    have hwidth : fitted.w.toNat ≤ canvas.w.toNat := (Nat.le_add_left _ _).trans hother.centred.within
    obtain ⟨x, hx, hxNat⟩ := exists_checkedSub hwidth
    obtain ⟨y, hy, hyNat⟩ := exists_checkedSub (x := canvas.h) (y := fitted.h) (by rw [hh])
    rw [hx, bind_eq_bind, bind_some, hy]
    refine ⟨_, rfl, ?_⟩
    have hy0 : y / 2 = 0 := half_sub_self canvas.h (by rw [hyNat, hh])
    have hxHalf : (x / 2).toNat = (canvas.w.toNat - fitted.w.toNat) / 2 := by rw [toNat_half, hxNat]
    constructor
    · exact ⟨by dsimp only; omega, hh ▸ hcanvas.2⟩
    · rw [hy0, hxHalf, hh]
      exact ⟨hother.centred.within, by simp⟩
    · refine .inr ⟨hy0, hh, ?_⟩
      rw [div_div_div_eq, mul_comm (region.h.toNat : ℚ), ← Nat.cast_mul, ← Nat.cast_mul, hxHalf]
      exact hother
    · -- equal cross products take the other branch
      intro haspect
      omega

/-- Recordings keep their proportions: a reshaped region fits the canvas, and what the encoder is started with is a size it can take. -/
theorem recording_sizes :
    (∀ start region canvas : Size, start.Positive → region.Positive → canvas.Positive →
      ∃ r, recordingCanvasRect start region canvas = some r ∧ FitsUndistorted start region canvas r) ∧
    ∀ (region : Size) (maxHeight : BitVec 32), ∃ out, recordingOutputSize region maxHeight = some out ∧ Encodable region out := by
  constructor
  · intro start region canvas hstart hregion hcanvas
    exact recordingCanvasRect_fits hstart hregion hcanvas
  · exact recordingOutputSize_encodable

theorem recording_sizes_reshaped : ∃ r, recordingCanvasRect ⟨3840, 2160⟩ ⟨1080, 2160⟩ ⟨1920, 1080⟩ = some r ∧
    FitsUndistorted ⟨3840, 2160⟩ ⟨1080, 2160⟩ ⟨1920, 1080⟩ r ∧ r = ⟨690, 0, 540, 1080⟩ := by
  obtain ⟨r, hr, hfits⟩ := recording_sizes.1 ⟨3840, 2160⟩ ⟨1080, 2160⟩ ⟨1920, 1080⟩ (by constructor <;> decide)
    (by constructor <;> decide) (by constructor <;> decide)
  refine ⟨r, hr, hfits, Option.some.inj (hr.symm.trans ?_)⟩
  decide +kernel

end Jwm.Recording
