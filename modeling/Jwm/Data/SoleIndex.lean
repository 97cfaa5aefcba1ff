/-
The positions of a list at which a predicate holds. Where there is only one, it follows its item through every reordering of the
list, and it is the one item that the predicate counts.
-/
import Mathlib.Data.List.FinRange

namespace Jwm

open List

variable {α : Type}

def indicesWhere (p : α → Nat → Bool) (l : List α) : List Nat := (l.zipIdx.filter fun e => p e.1 e.2).map (·.2)

/-- The predicate holds at this position, and at no other. -/
structure SoleAt (p : α → Bool) (l : List α) (i : Nat) : Prop where
  holds : ∃ a, l[i]? = some a ∧ p a = true
  sole : ∀ j b, l[j]? = some b → p b = true → j = i

/-! ## Positions -/

section

variable {p q : α → Bool} {l l' : List α} {i j : Nat}

theorem mem_indicesWhere {p : α → Nat → Bool} : i ∈ indicesWhere p l ↔ ∃ a, l[i]? = some a ∧ p a i = true := by
  unfold indicesWhere
  rw [mem_map]
  constructor
  · rintro ⟨⟨a, j⟩, hmem, rfl⟩
    obtain ⟨hmem, hp⟩ := mem_filter.1 hmem
    exact ⟨a, mem_zipIdx_iff_getElem?.1 hmem, hp⟩
  · rintro ⟨a, ha, hp⟩
    exact ⟨(a, i), mem_filter.2 ⟨mem_zipIdx_iff_getElem?.2 ha, hp⟩, rfl⟩

theorem indicesWhere_congr {p q : α → Nat → Bool} (h : ∀ i a, l[i]? = some a → p a i = q a i) : indicesWhere p l = indicesWhere q l := by
  unfold indicesWhere
  congr 1
  refine filter_congr fun e he => ?_
  exact h e.2 e.1 (mem_zipIdx_iff_getElem?.1 he)

theorem indicesWhere_nodup (p : α → Nat → Bool) (l : List α) : (indicesWhere p l).Nodup := by
  have hall : (l.zipIdx.map (·.2)).Nodup := by
    rw [zipIdx_map_snd]
    exact nodup_range'
  exact hall.sublist (filter_sublist.map _)

theorem indicesWhere_length (p : α → Bool) (l : List α) : (indicesWhere (fun a _ => p a) l).length = l.countP p := by
  unfold indicesWhere
  rw [length_map, ← countP_eq_length_filter]
  conv_rhs => rw [← zipIdx_map_fst 0 l, countP_map]
  rfl

theorem indicesWhere_eq_singleton : indicesWhere (fun a _ => p a) l = [i] ↔ SoleAt p l i := by
  constructor
  · intro h
    refine ⟨mem_indicesWhere.1 (by rw [h]; exact mem_singleton_self i), fun j b hj hb => ?_⟩
    have hmem : j ∈ indicesWhere (fun a _ => p a) l := mem_indicesWhere.2 ⟨b, hj, hb⟩
    rwa [h, mem_singleton] at hmem
  · rintro ⟨hholds, hsole⟩
    refine perm_singleton.1 ((perm_ext_iff_of_nodup (indicesWhere_nodup _ l) (nodup_singleton i)).2 fun j => ?_)
    rw [mem_singleton, mem_indicesWhere]
    constructor
    · rintro ⟨b, hj, hb⟩
      exact hsole j b hj hb
    · rintro rfl
      exact hholds

theorem indicesWhere_length_one : (indicesWhere (fun a _ => p a) l).length = 1 ↔ ∃ i, SoleAt p l i := by
  rw [length_eq_one_iff]
  exact exists_congr fun i => indicesWhere_eq_singleton

theorem countP_eq_one : l.countP p = 1 ↔ ∃ i, SoleAt p l i := by
  rw [← indicesWhere_length, indicesWhere_length_one]

theorem SoleAt.eq (h : SoleAt p l i) (h' : SoleAt p l j) : i = j := by
  obtain ⟨a, ha, hp⟩ := h.holds
  exact h'.sole i a ha hp

theorem SoleAt.lt (h : SoleAt p l i) : i < l.length := by
  obtain ⟨a, ha, -⟩ := h.holds
  exact (List.getElem?_eq_some_iff.1 ha).1

theorem SoleAt.findIdx? (h : SoleAt p l i) : l.findIdx? p = some i := by
  obtain ⟨a, ha, hp⟩ := h.holds
  obtain ⟨hi, rfl⟩ := List.getElem?_eq_some_iff.1 ha
  rw [findIdx?_eq_some_iff_getElem]
  refine ⟨hi, hp, fun j hj hpj => ?_⟩
  have := h.sole j _ (getElem?_eq_getElem (hj.trans hi)) hpj
  omega

end

/-! ## Reorderings -/

/-- The item of position `σ i` comes to position `i`. -/
def reorder (l : List α) (σ : Equiv.Perm (Fin l.length)) : List α := ofFn fun i => l.get (σ i)

section

variable {p : α → Bool} {l : List α} {σ : Equiv.Perm (Fin l.length)}

theorem reorder_length (l : List α) (σ : Equiv.Perm (Fin l.length)) : (reorder l σ).length = l.length := length_ofFn

theorem reorder_getElem? (i : Fin l.length) : (reorder l σ)[i.val]? = some (l.get (σ i)) := by
  unfold reorder
  rw [List.getElem?_ofFn, dif_pos i.isLt]

theorem reorder_perm : (reorder l σ).Perm l := by
  have h := Equiv.Perm.ofFn_comp_perm σ l.get
  rw [ofFn_get] at h
  exact h

theorem getElem?_perm (i : Fin l.length) : l[(σ i).val]? = some (l.get (σ i)) := getElem?_eq_getElem (σ i).isLt

theorem soleAt_reorder (i : Fin l.length) : SoleAt p (reorder l σ) i.val ↔ SoleAt p l (σ i).val := by
  constructor
  · rintro ⟨⟨a, ha, hp⟩, hsole⟩
    rw [reorder_getElem?, Option.some.injEq] at ha
    subst ha
    refine ⟨⟨_, getElem?_perm i, hp⟩, fun j b hj hb => ?_⟩
    obtain ⟨hlt, rfl⟩ := List.getElem?_eq_some_iff.1 hj
    have hback : (reorder l σ)[(σ.symm ⟨j, hlt⟩).val]? = some l[j] := by
      rw [reorder_getElem?]
      exact congrArg (fun k => some (l.get k)) (σ.apply_symm_apply ⟨j, hlt⟩)
    have hi : σ.symm ⟨j, hlt⟩ = i := Fin.ext (hsole _ _ hback hb)
    rw [← hi, σ.apply_symm_apply]
  · rintro ⟨⟨a, ha, hp⟩, hsole⟩
    rw [getElem?_perm, Option.some.injEq] at ha
    subst ha
    refine ⟨⟨_, reorder_getElem? i, hp⟩, fun j b hj hb => ?_⟩
    have hlt : j < l.length := reorder_length l σ ▸ (List.getElem?_eq_some_iff.1 hj).1
    rw [reorder_getElem? ⟨j, hlt⟩, Option.some.injEq] at hj
    subst hj
    have := hsole _ _ (getElem?_perm ⟨j, hlt⟩) hb
    exact congrArg Fin.val (σ.injective (Fin.ext this))

end

end Jwm
