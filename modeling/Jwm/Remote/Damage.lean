/-
Damage regions cover what is added to them: merging rectangles, collapsing the list into one, and
falling back to the whole image never lose a pixel.
-/
import Jwm.Remote.Frame
import Mathlib.Data.List.Perm.Basic

namespace Jwm.Remote

open List

/-! ## Rectangles -/

def DamageRect.Has (r : DamageRect) (x y : Nat) : Prop := r.x ≤ x ∧ x < r.x + r.w ∧ r.y ≤ y ∧ y < r.y + r.h

namespace DamageRegions

variable {a b rect : DamageRect} {rects : List DamageRect} {x y index : Nat}

theorem union_has_left (h : a.Has x y) : (union a b).Has x y := by
  unfold DamageRect.Has union at *
  dsimp only
  omega

theorem union_has_right (h : b.Has x y) : (union a b).Has x y := by
  unfold DamageRect.Has union at *
  dsimp only
  omega

theorem foldl_union_has : ∀ {rects : List DamageRect} {rect : DamageRect}, (rect.Has x y ∨ ∃ r ∈ rects, r.Has x y) →
    (rects.foldl union rect).Has x y
  | [], rect, h => by
    rcases h with h | ⟨r, hr, _⟩
    · exact h
    · exact absurd hr not_mem_nil
  | r :: rects, rect, h => by
    rw [foldl_cons]
    refine foldl_union_has ?_
    rcases h with h | ⟨s, hs, h⟩
    · exact .inl (union_has_left h)
    · rcases mem_cons.1 hs with rfl | hs
      · exact .inl (union_has_right h)
      · exact .inr ⟨s, hs, h⟩

/-! ## Lists of rectangles -/

theorem swapRemove_perm (hi : index < rects.length) : (rects[index] :: swapRemove rects index).Perm rects := by
  obtain ⟨front, last, rfl⟩ :=
    (eq_nil_or_concat' rects).resolve_left (ne_nil_of_length_pos (Nat.zero_lt_of_lt hi))
  unfold swapRemove
  rw [getLastD_concat]
  by_cases hlast : index = front.length
  · subst hlast
    rw [set_append_right _ _ (Nat.le_refl _), Nat.sub_self, set_cons_zero, dropLast_concat, getElem_concat_length rfl]
    exact (perm_append_singleton last front).symm
  · -- the last entry moves into the gap
    have hfront : index < front.length := by
      rw [length_append, length_singleton] at hi
      omega
    rw [set_append_left _ _ hfront, dropLast_concat, getElem_append_left hfront]
    refine (List.Perm.cons _ (set_perm_cons_eraseIdx hfront last)).trans ?_
    refine (List.Perm.swap _ _ _).trans ((List.Perm.cons last (getElem_cons_eraseIdx_perm hfront)).trans ?_)
    exact (perm_append_singleton last front).symm

theorem mem_swapRemove (hi : index < rects.length) {r : DamageRect} (hr : r ∈ rects) :
    r = rects[index] ∨ r ∈ swapRemove rects index := mem_cons.1 ((swapRemove_perm hi).mem_iff.2 hr)

theorem absorb_has (rect : DamageRect) (rects : List DamageRect) (index : Nat)
    (h : rect.Has x y ∨ ∃ r ∈ rects, r.Has x y) :
    (absorb rect rects index).1.Has x y ∨ ∃ r ∈ (absorb rect rects index).2, r.Has x y := by
  induction rect, rects, index using absorb.induct with
  | case1 rect rects index hi other htouch ih =>
    rw [absorb, dif_pos hi, if_pos htouch]
    refine ih ?_
    rcases h with h | ⟨r, hr, h⟩
    · exact .inl (union_has_left h)
    · rcases mem_swapRemove hi hr with rfl | hr
      · exact .inl (union_has_right h)
      · exact .inr ⟨r, hr, h⟩
  | case2 rect rects index hi other htouch ih =>
    rw [absorb, dif_pos hi, if_neg htouch]
    exact ih h
  | case3 rect rects index hi =>
    rw [absorb, dif_neg hi]
    exact h

/-! ## Regions -/

def Has (r : DamageRegions) (x y : Nat) : Prop := ∃ rect ∈ r.rects, rect.Has x y

def Single (r : DamageRegions) : Prop := r.collapsed = true → ∃ rect, r.rects = [rect]

theorem single_default : Single default := fun h => by cases h

variable {r : DamageRegions} {dimensions : Nat × Nat}

theorem add_single (h : r.Single) : (r.add rect dimensions).Single := by
  unfold add
  split
  · exact h
  · dsimp only
    generalize hmerged : (if r.collapsed = true then _ else _ : DamageRect × List DamageRect × Bool) = merged
    split
    · exact fun _ => ⟨_, rfl⟩
    · intro hc
      suffices hnil : merged.2.1 = [] from ⟨merged.1, by rw [hnil, nil_append]⟩
      subst hmerged
      split at hc
      · rw [if_pos ‹_›]
      · split at hc
        · rw [if_neg ‹_›, if_pos ‹_›]
        · cases hc

/-- Adding a rectangle covers it and what was covered before, inside the image. -/
theorem add_has (hs : r.Single) (hx : x < dimensions.1) (hy : y < dimensions.2) (h : r.Has x y ∨ rect.Has x y) :
    (r.add rect dimensions).Has x y := by
  unfold add
  split
  · rename_i hempty
    rcases h with h | h
    · exact h
    · exfalso
      unfold DamageRect.Has at h
      simp only [Bool.or_eq_true, decide_eq_true_eq] at hempty
      omega
  · dsimp only
    generalize hmerged : (if r.collapsed = true then _ else _ : DamageRect × List DamageRect × Bool) = merged
    split
    · refine ⟨_, mem_singleton_self _, ?_⟩
      unfold DamageRect.Has
      dsimp only
      omega
    · -- the merged rectangle and those left over cover the pixel
      suffices hc : merged.1.Has x y ∨ ∃ o ∈ merged.2.1, o.Has x y by
        rcases hc with hc | ⟨o, ho, hc⟩
        · exact ⟨_, mem_append_right _ (mem_singleton_self _), hc⟩
        · exact ⟨o, mem_append_left _ ho, hc⟩
      subst hmerged
      split
      · rename_i hcollapsed
        obtain ⟨one, hone⟩ := hs hcollapsed
        left
        rcases h with ⟨o, ho, h⟩ | h
        · rw [hone] at ho ⊢
          obtain rfl := mem_singleton.1 ho
          exact union_has_left h
        · exact union_has_right h
      · have habsorb := absorb_has rect r.rects 0 h.symm
        split
        · exact .inl (foldl_union_has habsorb)
        · exact habsorb

theorem foldl_add_has {ι : Type} {f : ι → DamageRect} (hx : x < dimensions.1) (hy : y < dimensions.2) :
    ∀ {l : List ι} {r : DamageRegions}, r.Single → (r.Has x y ∨ ∃ i ∈ l, (f i).Has x y) →
      (l.foldl (fun r i => r.add (f i) dimensions) r).Has x y
  | [], r, _, h => by
    rcases h with h | ⟨i, hi, _⟩
    · exact h
    · exact absurd hi not_mem_nil
  | i :: l, r, hs, h => by
    rw [foldl_cons]
    refine foldl_add_has hx hy (add_single hs) ?_
    rcases h with h | ⟨j, hj, h⟩
    · exact .inl (add_has hs hx hy (.inl h))
    · rcases mem_cons.1 hj with rfl | hj
      · exact .inl (add_has hs hx hy (.inr h))
      · exact .inr ⟨j, hj, h⟩

end DamageRegions

end Jwm.Remote
