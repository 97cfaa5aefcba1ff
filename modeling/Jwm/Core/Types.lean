/-
Keys, rectangles and 32-bit arithmetic shared by every part of the window manager
(`core/types.rs`, `core/models.rs`, `backend/api.rs`).
-/
import Mathlib.Algebra.Ring.Int.Defs
import Mathlib.Algebra.Ring.Nat
import Mathlib.Order.Lattice

namespace Jwm

/-- `slotmap::DefaultKey`: a slot index and the version of its occupant. -/
structure DefaultKey where
  idx : Nat
  version : Nat
deriving DecidableEq

abbrev ClientKey := DefaultKey
abbrev MonitorKey := DefaultKey
abbrev OutputId := Nat

/-- An `i32` rectangle. -/
structure Rect where
  x : Int
  y : Int
  w : Int
  h : Int
deriving DecidableEq

/-! ## Saturating `i32` arithmetic -/

namespace I32

def min : Int := -2 ^ 31
def max : Int := 2 ^ 31 - 1

/-- The nearest `i32`. -/
def clamp (n : Int) : Int := Max.max min (Min.min max n)

def saturatingAdd (a b : Int) : Int := clamp (a + b)
def saturatingSub (a b : Int) : Int := clamp (a - b)
def saturatingMul (a b : Int) : Int := clamp (a * b)

end I32

/-! ## Maximize axes -/

/-- `backend::api::MaximizeAxes`. -/
structure MaximizeAxes where
  vert : Bool
  horz : Bool
deriving DecidableEq

namespace MaximizeAxes

def none : MaximizeAxes := ⟨false, false⟩
def full : MaximizeAxes := ⟨true, true⟩

def any (a : MaximizeAxes) : Bool := a.vert || a.horz

/-- `a` sets an axis that `current` does not. -/
def gainsOver (a current : MaximizeAxes) : Bool :=
  (a.vert && !current.vert) || (a.horz && !current.horz)

theorem any_eq_false {a : MaximizeAxes} : a.any = false ↔ a = none := by
  rcases a with ⟨v, h⟩
  simp [any, none]

end MaximizeAxes

/-! ## Rectangles within an area and apart from one another -/

namespace Rect

/-- It lies inside `area`. -/
structure Within (r area : Rect) : Prop where
  left : area.x ≤ r.x
  top : area.y ≤ r.y
  right : r.x + r.w ≤ area.x + area.w
  bottom : r.y + r.h ≤ area.y + area.h

structure Positive (r : Rect) : Prop where
  width : 1 ≤ r.w
  height : 1 ≤ r.h

/-- They share no pixel: one lies beside or below the other. -/
def Apart (a b : Rect) : Prop := a.x + a.w ≤ b.x ∨ b.x + b.w ≤ a.x ∨ a.y + a.h ≤ b.y ∨ b.y + b.h ≤ a.y

instance (a b : Rect) : Decidable (Apart a b) := inferInstanceAs (Decidable (_ ∨ _))

theorem Apart.symm {a b : Rect} (h : Apart a b) : Apart b a := by
  rcases h with h | h | h | h
  · exact .inr (.inl h)
  · exact .inl h
  · exact .inr (.inr (.inr h))
  · exact .inr (.inr (.inl h))

theorem Apart.within {a b area area' : Rect} (h : Apart area area') (ha : a.Within area) (hb : b.Within area') :
    Apart a b := by
  obtain ⟨hal, hat, har, hab⟩ := ha
  obtain ⟨hbl, hbt, hbr, hbb⟩ := hb
  unfold Apart at h ⊢
  omega

theorem Within.refl (r : Rect) : r.Within r := ⟨Int.le_refl _, Int.le_refl _, Int.le_refl _, Int.le_refl _⟩

theorem Within.trans {a b c : Rect} (h : a.Within b) (h' : b.Within c) : a.Within c := by
  obtain ⟨hal, hat, har, hab⟩ := h
  obtain ⟨hbl, hbt, hbr, hbb⟩ := h'
  exact ⟨by omega, by omega, by omega, by omega⟩

end Rect

end Jwm
