/-
Depths taken off the four edges of a rectangle. Several claims on an edge amount to the deepest of them, in whatever
order they are met.
-/
import Jwm.Core.Types
import Mathlib.Data.List.Perm.Basic

namespace Jwm

/-- `xbar_core::placement::BarEdge`. -/
inductive BarEdge where
  | top | bottom | left | right
deriving DecidableEq

namespace BarEdge

def isVertical : BarEdge → Bool
  | left | right => true
  | top | bottom => false

def opposite : BarEdge → BarEdge
  | top => bottom
  | bottom => top
  | left => right
  | right => left

end BarEdge

/-- A depth for each edge. -/
abbrev Insets := BarEdge → Int

namespace Insets

def of (top bottom left right : Int) : Insets
  | .top => top
  | .bottom => bottom
  | .left => left
  | .right => right

def single (edge : BarEdge) (depth : Int) : Insets := fun e => if e = edge then depth else 0

/-- The deepest claim on each edge; no claim is nothing. -/
def total (claims : List Insets) : Insets := claims.foldl (fun acc claim e => max (acc e) (claim e)) fun _ => 0

variable {claims claims' : List Insets} {e : BarEdge} {b : Int}

theorem total_eq (claims : List Insets) (e : BarEdge) : total claims e = (claims.map (· e)).foldl max 0 := by
  unfold total
  generalize hstart : (fun _ => 0 : Insets) = acc
  rw [show (0 : Int) = acc e by rw [← hstart]]
  clear hstart
  induction claims generalizing acc with
  | nil => rfl
  | cons claim claims ih =>
    rw [List.foldl_cons, ih, List.map_cons, List.foldl_cons]

theorem le_foldl_max : ∀ (l : List Int) (start : Int), start ≤ l.foldl max start ∧ ∀ n ∈ l, n ≤ l.foldl max start
  | [], start => ⟨Int.le_refl _, fun _ h => absurd h List.not_mem_nil⟩
  | m :: l, start => by
    obtain ⟨hstart, hrest⟩ := le_foldl_max l (max start m)
    rw [List.foldl_cons]
    refine ⟨(Int.le_max_left _ _).trans hstart, fun n hn => ?_⟩
    rcases List.mem_cons.1 hn with rfl | hn
    · exact (Int.le_max_right _ _).trans hstart
    · exact hrest n hn

theorem foldl_max_le : ∀ (l : List Int) {start : Int}, start ≤ b → (∀ n ∈ l, n ≤ b) → l.foldl max start ≤ b
  | [], _, h, _ => h
  | n :: l, _, h, hl => foldl_max_le l (Int.max_le.2 ⟨h, hl n (List.mem_cons_self ..)⟩)
      fun m hm => hl m (List.mem_cons_of_mem _ hm)

theorem le_total {claim : Insets} (h : claim ∈ claims) (e : BarEdge) : claim e ≤ total claims e := by
  rw [total_eq]
  exact (le_foldl_max _ 0).2 _ (List.mem_map_of_mem h)

theorem total_nonneg (claims : List Insets) (e : BarEdge) : 0 ≤ total claims e := by
  rw [total_eq]
  exact (le_foldl_max _ 0).1

theorem total_perm (h : claims.Perm claims') : total claims = total claims' := by
  funext e
  rw [total_eq, total_eq]
  have hperm := h.map (· e)
  exact Int.le_antisymm
    (foldl_max_le _ (le_foldl_max _ 0).1 fun n hn => (le_foldl_max _ 0).2 n (hperm.mem_iff.1 hn))
    (foldl_max_le _ (le_foldl_max _ 0).1 fun n hn => (le_foldl_max _ 0).2 n (hperm.mem_iff.2 hn))

end Insets

namespace Rect

def across (r : Rect) : BarEdge → Int
  | .top | .bottom => r.h
  | .left | .right => r.w

def inset (r : Rect) (i : Insets) : Rect :=
  ⟨r.x + i .left, r.y + i .top, r.w - i .left - i .right, r.h - i .top - i .bottom⟩

def strip (r : Rect) : BarEdge → Int → Rect
  | .top, depth => ⟨r.x, r.y, r.w, depth⟩
  | .bottom, depth => ⟨r.x, r.y + r.h - depth, r.w, depth⟩
  | .left, depth => ⟨r.x, r.y, depth, r.h⟩
  | .right, depth => ⟨r.x + r.w - depth, r.y, depth, r.h⟩

def pixel (px py : Int) : Rect := ⟨px, py, 1, 1⟩

/-- Depths that leave something between opposite edges leave a rectangle inside. -/
theorem inset_spec {r : Rect} {i : Insets} (hi : ∀ e, 0 ≤ i e) (hroom : ∀ e, i e + i e.opposite < r.across e) :
    (r.inset i).Positive ∧ (r.inset i).Within r := by
  have hv := hroom .top
  have hh := hroom .left
  have htop := hi .top
  have hbottom := hi .bottom
  have hleft := hi .left
  have hright := hi .right
  unfold across BarEdge.opposite at hv hh
  refine ⟨⟨?_, ?_⟩, ⟨?_, ?_, ?_, ?_⟩⟩ <;> unfold inset <;> dsimp only at hv hh ⊢ <;> omega

theorem inset_apart_strip (r : Rect) {i : Insets} {e : BarEdge} {depth : Int} (h : depth ≤ i e) :
    Apart (r.inset i) (r.strip e depth) := by
  unfold Apart inset
  cases e with
  | top => exact .inr (.inr (.inr (Int.add_le_add_left h _)))
  | bottom =>
    refine .inr (.inr (.inl ?_))
    dsimp only [strip]
    omega
  | left => exact .inr (.inl (Int.add_le_add_left h _))
  | right =>
    refine .inl ?_
    dsimp only [strip]
    omega

end Rect

end Jwm
