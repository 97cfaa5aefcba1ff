/-
Damage regions keep to a fixed budget, whatever rectangles of an image are added in whatever order. The 16-bit sums of the
merge loop never overflow, and the loop ends.
-/
import Jwm.Data.Run
import Jwm.Remote.Damage

namespace Jwm.Remote

open List Option

namespace DamageRect

/-- The rectangle has pixels, all of them in the image. -/
structure Fits (dimensions : Nat × Nat) (r : DamageRect) : Prop where
  w : 0 < r.w
  h : 0 < r.h
  right : r.x + r.w ≤ dimensions.1
  bottom : r.y + r.h ≤ dimensions.2

end DamageRect

namespace DamageRegions

open DamageRect

variable {dimensions : Nat × Nat} {a b rect : DamageRect} {rects : List DamageRect} {index fuel : Nat} {r : DamageRegions}

theorem union_fits (ha : a.Fits dimensions) (hb : b.Fits dimensions) : (union a b).Fits dimensions := by
  obtain ⟨haw, hah, har, hab⟩ := ha
  obtain ⟨hbw, hbh, hbr, hbb⟩ := hb
  refine ⟨?_, ?_, ?_, ?_⟩ <;> (unfold union; dsimp only; omega)

theorem foldl_union_fits : ∀ {rects : List DamageRect} {rect : DamageRect}, rect.Fits dimensions →
    (∀ r ∈ rects, r.Fits dimensions) → (rects.foldl union rect).Fits dimensions
  | [], _, h, _ => h
  | r :: rects, rect, h, hall => by
    rw [foldl_cons]
    exact foldl_union_fits (union_fits h (hall r (mem_cons_self ..))) fun s hs => hall s (mem_cons_of_mem _ hs)

theorem touches_comm (a b : DamageRect) : touches a b = touches b a := by
  unfold touches
  rw [Bool.eq_iff_iff]
  simp only [Bool.and_eq_true, decide_eq_true_eq]
  omega

def Separate (a b : DamageRect) : Prop := touches a b = false

theorem Separate.symm (h : Separate a b) : Separate b a := (touches_comm b a).trans h

/-! ## The merge loop -/

theorem length_swapRemove (hi : index < rects.length) : (swapRemove rects index).length + 1 = rects.length := by
  unfold swapRemove
  rw [length_dropLast, length_set]
  omega

/-- What the loop starts from: regions of the image, separate from each other and, up to the index, from
the rectangle. -/
structure Merging (dimensions : Nat × Nat) (rect : DamageRect) (rects : List DamageRect) (index : Nat) : Prop where
  grown : rect.Fits dimensions
  regions : ∀ r ∈ rects, r.Fits dimensions
  separate : rects.Pairwise Separate
  passed : ∀ r ∈ rects.take index, Separate rect r

theorem Merging.merge (h : Merging dimensions rect rects index) (hi : index < rects.length) :
    Merging dimensions (union rect rects[index]) (swapRemove rects index) 0 := by
  have hperm := swapRemove_perm hi
  have hsub : ∀ r ∈ swapRemove rects index, r ∈ rects := fun r hr => hperm.mem_iff.1 (mem_cons_of_mem _ hr)
  refine ⟨union_fits h.grown (h.regions _ (getElem_mem hi)), fun r hr => h.regions r (hsub r hr), ?_, fun r hr => ?_⟩
  · exact (pairwise_cons.1 ((hperm.pairwise_iff Separate.symm).2 h.separate)).2
  · rw [take_zero] at hr
    cases hr

theorem Merging.pass (h : Merging dimensions rect rects index) (hi : index < rects.length)
    (hclear : ¬ touches rect rects[index] = true) : Merging dimensions rect rects (index + 1) := by
  refine ⟨h.grown, h.regions, h.separate, fun r hr => ?_⟩
  rw [take_succ_eq_append_getElem hi] at hr
  rcases mem_append.1 hr with hr | hr
  · exact h.passed r hr
  · rw [mem_singleton.1 hr]
    exact Bool.eq_false_iff.2 hclear

theorem absorb_merged (dimensions : Nat × Nat) (rect : DamageRect) (rects : List DamageRect) (index : Nat)
    (h : Merging dimensions rect rects index) :
    Merging dimensions (absorb rect rects index).1 (absorb rect rects index).2 (absorb rect rects index).2.length ∧
      (absorb rect rects index).2.length ≤ rects.length := by
  induction rect, rects, index using absorb.induct with
  | case1 rect rects index hi other htouch ih =>
    rw [absorb, dif_pos hi, if_pos htouch]
    obtain ⟨hmerged, hle⟩ := ih (h.merge hi)
    have hlen := length_swapRemove hi
    exact ⟨hmerged, Nat.le_trans hle (by omega)⟩
  | case2 rect rects index hi other htouch ih =>
    rw [absorb, dif_pos hi, if_neg htouch]
    exact ih (h.pass hi htouch)
  | case3 rect rects index hi =>
    rw [absorb, dif_neg hi]
    refine ⟨⟨h.grown, h.regions, h.separate, fun r hr => h.passed r ?_⟩, Nat.le_refl _⟩
    rw [take_length] at hr
    rwa [take_of_length_le (Nat.le_of_not_lt hi)]

/-! ## Regions -/

/-- The budget kept after any number of additions. -/
structure Budget (dimensions : Nat × Nat) (r : DamageRegions) : Prop where
  length : r.rects.length ≤ maxDamageRegions
  fits : ∀ rect ∈ r.rects, rect.Fits dimensions
  separate : r.collapsed = false → r.rects.Pairwise Separate
  single : r.Single

theorem budget_default (dimensions : Nat × Nat) : Budget dimensions default :=
  ⟨Nat.zero_le _, fun _ hr => absurd hr not_mem_nil, fun _ => List.Pairwise.nil, single_default⟩

theorem Budget.merging (h : Budget dimensions r) (hc : r.collapsed = false) (hr : rect.Fits dimensions) :
    Merging dimensions rect r.rects 0 := by
  refine ⟨hr, h.fits, h.separate hc, fun s hs => ?_⟩
  rw [take_zero] at hs
  cases hs

theorem budget_add (h : Budget dimensions r) (hr : rect.x + rect.w ≤ dimensions.1 ∧ rect.y + rect.h ≤ dimensions.2) :
    Budget dimensions (r.add rect dimensions) := by
  have hsingle : (r.add rect dimensions).Single := add_single h.single
  unfold add at hsingle ⊢
  by_cases hempty : (rect.w = 0 || rect.h = 0) = true
  · rw [if_pos hempty]
    exact h
  rw [if_neg hempty] at hsingle ⊢
  simp only [Bool.or_eq_true, decide_eq_true_eq, not_or] at hempty
  have hfit : rect.Fits dimensions := ⟨by omega, by omega, hr.1, hr.2⟩
  dsimp only at hsingle ⊢
  generalize hmerged : (if r.collapsed = true then _ else _ : DamageRect × List DamageRect × Bool) = merged at hsingle ⊢
  -- the merged rectangle, and what is left over of the regions
  have hleft : merged.1.Fits dimensions ∧ (∀ s ∈ merged.2.1, s.Fits dimensions) ∧ merged.2.1.length < maxDamageRegions ∧
      (merged.2.2 = false → (merged.2.1 ++ [merged.1]).Pairwise Separate) := by
    subst hmerged
    split
    · rename_i hc
      obtain ⟨one, hone⟩ := h.single hc
      refine ⟨?_, fun s hs => absurd hs not_mem_nil, Nat.zero_lt_succ 7, fun hf => by cases hf⟩
      rw [hone]
      exact union_fits (h.fits one (by rw [hone]; exact mem_singleton_self one)) hfit
    · rename_i hc
      obtain ⟨hmerge, hle⟩ := absorb_merged dimensions rect r.rects 0 (h.merging (Bool.eq_false_iff.2 hc) hfit)
      have hlen := h.length
      split
      · exact ⟨foldl_union_fits hmerge.grown hmerge.regions, fun s hs => absurd hs not_mem_nil,
          Nat.zero_lt_succ 7, fun hf => by cases hf⟩
      · rename_i hroom
        refine ⟨hmerge.grown, hmerge.regions, Nat.lt_of_le_of_ne (Nat.le_trans hle hlen) hroom, fun _ => ?_⟩
        refine pairwise_append.2 ⟨hmerge.separate, pairwise_singleton _ _, fun s hs t ht => ?_⟩
        rw [mem_singleton.1 ht]
        refine Separate.symm (hmerge.passed s ?_)
        rw [take_length]
        exact hs
  obtain ⟨hrect, hrects, hlen, hsep⟩ := hleft
  split
  · rename_i hfull
    rw [if_pos hfull] at hsingle
    refine ⟨Nat.succ_le_succ (Nat.zero_le 7), fun s hs => ?_, fun hf => (by cases hf), hsingle⟩
    rw [mem_singleton.1 hs]
    exact ⟨Nat.lt_of_lt_of_le (Nat.add_pos_right _ hrect.w) hrect.right,
      Nat.lt_of_lt_of_le (Nat.add_pos_right _ hrect.h) hrect.bottom, Nat.le_of_eq (Nat.zero_add _),
      Nat.le_of_eq (Nat.zero_add _)⟩
  · rename_i hfull
    rw [if_neg hfull] at hsingle
    refine ⟨?_, fun s hs => ?_, hsep, hsingle⟩
    · rw [length_append, length_singleton]
      exact hlen
    · rcases mem_append.1 hs with hs | hs
      · exact hrects s hs
      · rw [mem_singleton.1 hs]
        exact hrect

/-! ## Checked sums -/

/-- A sum of two `u16`, which must not overflow. -/
def sum16 (a b : Nat) : Option Nat := if a + b < 2 ^ 16 then some (a + b) else none

/-- `union` with its sums checked. -/
def unionChecked (a b : DamageRect) : Option DamageRect := do
  let x := min a.x b.x
  let y := min a.y b.y
  some ⟨x, y, max (← sum16 a.x a.w) (← sum16 b.x b.w) - x, max (← sum16 a.y a.h) (← sum16 b.y b.h) - y⟩

/-- `touches` with its sums checked, those too that `&&` leaves out. -/
def touchesChecked (rect other : DamageRect) : Option Bool := do
  let otherRight ← sum16 other.x other.w
  let rectRight ← sum16 rect.x rect.w
  let otherBottom ← sum16 other.y other.h
  let rectBottom ← sum16 rect.y rect.h
  some (rect.x ≤ otherRight && other.x ≤ rectRight && rect.y ≤ otherBottom && other.y ≤ rectBottom)

/-- The merge loop with its sums checked, which must end within `fuel` rounds. -/
def absorbChecked : Nat → DamageRect → List DamageRect → Nat → Option (DamageRect × List DamageRect)
  | 0, _, _, _ => none
  | fuel + 1, rect, rects, index =>
    if h : index < rects.length then do
      let other := rects[index]
      if ← touchesChecked rect other then absorbChecked fuel (← unionChecked rect other) (swapRemove rects index) 0
      else absorbChecked fuel rect rects (index + 1)
    else some (rect, rects)

def mergeRounds : Nat := (maxDamageRegions + 1) * (maxDamageRegions + 1)

/-- `add` with its sums checked and its loop bounded. -/
def addChecked (r : DamageRegions) (rect : DamageRect) (dimensions : Nat × Nat) : Option DamageRegions :=
  if rect.w = 0 || rect.h = 0 then some r
  else do
    let merged : DamageRect × List DamageRect × Bool ←
      if r.collapsed then (unionChecked (r.rects.headD ⟨0, 0, 0, 0⟩) rect).map fun rect => (rect, [], true)
      else do
        let (rect, rects) ← absorbChecked mergeRounds rect r.rects 0
        if rects.length = maxDamageRegions then (rects.foldlM unionChecked rect).map fun rect => (rect, [], true)
        else some (rect, rects, false)
    let rects := merged.2.1 ++ [merged.1]
    if (rects.map fun r => r.w * r.h).sum * 5 ≥ dimensions.1 * dimensions.2 * 3 then
      some ⟨[⟨0, 0, dimensions.1, dimensions.2⟩], true⟩
    else some ⟨rects, merged.2.2⟩

section Checked

variable (hw : dimensions.1 < 2 ^ 16) (hh : dimensions.2 < 2 ^ 16)
include hw hh

theorem sums_of_fits (h : a.Fits dimensions) : sum16 a.x a.w = some (a.x + a.w) ∧ sum16 a.y a.h = some (a.y + a.h) :=
  ⟨if_pos (Nat.lt_of_le_of_lt h.right hw), if_pos (Nat.lt_of_le_of_lt h.bottom hh)⟩

theorem unionChecked_eq (ha : a.Fits dimensions) (hb : b.Fits dimensions) : unionChecked a b = some (union a b) := by
  obtain ⟨hax, hay⟩ := sums_of_fits hw hh ha
  obtain ⟨hbx, hby⟩ := sums_of_fits hw hh hb
  unfold unionChecked
  rw [hax, hay, hbx, hby]
  rfl

theorem touchesChecked_eq (ha : a.Fits dimensions) (hb : b.Fits dimensions) : touchesChecked a b = some (touches a b) := by
  obtain ⟨hax, hay⟩ := sums_of_fits hw hh ha
  obtain ⟨hbx, hby⟩ := sums_of_fits hw hh hb
  unfold touchesChecked
  rw [hax, hay, hbx, hby]
  rfl

theorem foldlM_unionChecked : ∀ {rects : List DamageRect} {rect : DamageRect}, rect.Fits dimensions →
    (∀ r ∈ rects, r.Fits dimensions) → rects.foldlM unionChecked rect = some (rects.foldl union rect)
  | [], _, _, _ => rfl
  | r :: rects, rect, h, hall => by
    have hr := hall r (mem_cons_self ..)
    rw [foldlM_cons, unionChecked_eq hw hh h hr, foldl_cons, bind_eq_bind, bind_some]
    exact foldlM_unionChecked (union_fits h hr) fun s hs => hall s (mem_cons_of_mem _ hs)

/-- Each round passes a region or takes one out, after which all are tested again. -/
theorem absorbChecked_eq : ∀ {fuel : Nat} {rect : DamageRect} {rects : List DamageRect} {index : Nat},
    Merging dimensions rect rects index → (rects.length + 1) * (rects.length + 1) ≤ fuel + index → index ≤ rects.length →
    absorbChecked fuel rect rects index = some (absorb rect rects index)
  | 0, rect, rects, index, _, hfuel, hindex => by
    have hsquare : rects.length + 1 ≤ (rects.length + 1) * (rects.length + 1) := Nat.le_mul_of_pos_left _ (Nat.succ_pos _)
    omega
  | fuel + 1, rect, rects, index, h, hfuel, hindex => by
    rw [absorbChecked, absorb]
    by_cases hi : index < rects.length
    · have hother := h.regions _ (getElem_mem hi)
      rw [dif_pos hi, dif_pos hi]
      dsimp only
      rw [touchesChecked_eq hw hh h.grown hother]
      by_cases htouch : touches rect rects[index] = true
      · have hlen := length_swapRemove hi
        simp only [htouch, bind_eq_bind, bind_some, if_true, unionChecked_eq hw hh h.grown hother]
        refine absorbChecked_eq (h.merge hi) ?_ (Nat.zero_le _)
        -- one region less: a whole row of rounds less
        rw [hlen]
        rw [Nat.succ_mul, Nat.mul_succ] at hfuel
        omega
      · have hpass : touches rect rects[index] = false := Bool.eq_false_iff.2 htouch
        simp only [hpass, bind_eq_bind, bind_some, Bool.false_eq_true, if_false]
        exact absorbChecked_eq (h.pass hi htouch) (by omega) hi
    · rw [dif_neg hi, dif_neg hi]

theorem addChecked_eq (h : Budget dimensions r)
    (hr : rect.x + rect.w ≤ dimensions.1 ∧ rect.y + rect.h ≤ dimensions.2) :
    r.addChecked rect dimensions = some (r.add rect dimensions) := by
  unfold addChecked add
  by_cases hempty : (rect.w = 0 || rect.h = 0) = true
  · rw [if_pos hempty, if_pos hempty]
  rw [if_neg hempty, if_neg hempty]
  simp only [Bool.or_eq_true, decide_eq_true_eq, not_or] at hempty
  have hfit : rect.Fits dimensions := ⟨by omega, by omega, hr.1, hr.2⟩
  cases hc : r.collapsed with
  | true =>
    obtain ⟨one, hone⟩ := h.single hc
    have hone_fits := h.fits one (by rw [hone]; exact mem_singleton_self one)
    simp only [if_true, hone, headD_cons, unionChecked_eq hw hh hone_fits hfit, map_some, bind_eq_bind, bind_some]
    split <;> rfl
  | false =>
    have hrounds : (r.rects.length + 1) * (r.rects.length + 1) ≤ mergeRounds :=
      Nat.mul_le_mul (Nat.succ_le_succ h.length) (Nat.succ_le_succ h.length)
    obtain ⟨hmerge, -⟩ := absorb_merged dimensions rect r.rects 0 (h.merging hc hfit)
    have habsorb : absorbChecked mergeRounds rect r.rects 0 = some (absorb rect r.rects 0) :=
      absorbChecked_eq hw hh (h.merging hc hfit) hrounds (Nat.zero_le _)
    simp only [Bool.false_eq_true, if_false, habsorb, bind_eq_bind, bind_some]
    by_cases hfull : (absorb rect r.rects 0).2.length = maxDamageRegions
    · rw [if_pos hfull, if_pos hfull, foldlM_unionChecked hw hh hmerge.grown hmerge.regions]
      simp only [map_some, bind_some]
      split <;> rfl
    · rw [if_neg hfull, if_neg hfull]
      split <;> rfl

end Checked

/-! ## Runs -/

def addAll (dimensions : Nat × Nat) (rects : List DamageRect) : DamageRegions :=
  rects.foldl (fun r rect => r.add rect dimensions) default

theorem budget_foldl : ∀ {rects : List DamageRect} {r : DamageRegions}, Budget dimensions r →
    (∀ rect ∈ rects, rect.x + rect.w ≤ dimensions.1 ∧ rect.y + rect.h ≤ dimensions.2) →
    Budget dimensions (rects.foldl (fun r rect => r.add rect dimensions) r)
  | [], _, h, _ => h
  | rect :: rects, r, h, hall => by
    rw [foldl_cons]
    exact budget_foldl (budget_add h (hall rect (mem_cons_self ..))) fun s hs => hall s (mem_cons_of_mem _ hs)

theorem foldlM_addChecked (hw : dimensions.1 < 2 ^ 16) (hh : dimensions.2 < 2 ^ 16) :
    ∀ {rects : List DamageRect} {r : DamageRegions}, Budget dimensions r →
    (∀ rect ∈ rects, rect.x + rect.w ≤ dimensions.1 ∧ rect.y + rect.h ≤ dimensions.2) →
    rects.foldlM (fun r rect => r.addChecked rect dimensions) r =
      some (rects.foldl (fun r rect => r.add rect dimensions) r)
  | [], _, _, _ => rfl
  | rect :: rects, r, h, hall => by
    have hrect := hall rect (mem_cons_self ..)
    rw [foldlM_cons, addChecked_eq hw hh h hrect, foldl_cons, bind_eq_bind, bind_some]
    exact foldlM_addChecked hw hh (budget_add h hrect) fun s hs => hall s (mem_cons_of_mem _ hs)

/-- Whatever rectangles of an image are added, the regions stay few, disjoint and inside it, and cover
them all; every loop ends and no sum overflows. -/
theorem damage_budget {dimensions : Nat × Nat} (hw : dimensions.1 ≤ maxDimension) (hh : dimensions.2 ≤ maxDimension)
    {rects : List DamageRect}
    (hin : ∀ rect ∈ rects, rect.x + rect.w ≤ dimensions.1 ∧ rect.y + rect.h ≤ dimensions.2) :
    (addAll dimensions rects).rects.length ≤ 8 ∧
      (∀ region ∈ (addAll dimensions rects).rects, region.Fits dimensions) ∧
      (∀ rect ∈ rects, ∀ x y, rect.Has x y → (addAll dimensions rects).Has x y) ∧
      ((addAll dimensions rects).collapsed = false → (addAll dimensions rects).rects.Pairwise Separate) ∧
      rects.foldlM (fun r rect => r.addChecked rect dimensions) default = some (addAll dimensions rects) := by
  have hbudget := budget_foldl (budget_default dimensions) hin
  refine ⟨hbudget.length, hbudget.fits, fun rect hrect x y hhas => ?_, hbudget.separate, ?_⟩
  · obtain ⟨hright, hbottom⟩ := hin rect hrect
    have hpixel := hhas
    unfold DamageRect.Has at hpixel
    exact foldl_add_has (by omega) (by omega) single_default (.inr ⟨rect, hrect, hhas⟩)
  · unfold maxDimension at hw hh
    exact foldlM_addChecked (by omega) (by omega) (budget_default dimensions) hin

def cornerDamage : List DamageRect := [⟨0, 0, 4, 4⟩, ⟨8, 8, 4, 4⟩, ⟨4, 4, 4, 4⟩]

theorem damage_budget_corner :
    (addAll (32, 32) cornerDamage).rects.length ≤ 8 ∧
      (∀ region ∈ (addAll (32, 32) cornerDamage).rects, region.Fits (32, 32)) ∧
      (∀ rect ∈ cornerDamage, ∀ x y, rect.Has x y → (addAll (32, 32) cornerDamage).Has x y) ∧
      ((addAll (32, 32) cornerDamage).collapsed = false → (addAll (32, 32) cornerDamage).rects.Pairwise Separate) ∧
      cornerDamage.foldlM (fun r rect => r.addChecked rect (32, 32)) default = some (addAll (32, 32) cornerDamage) :=
  damage_budget (by decide) (by decide) (by decide)

end DamageRegions

end Jwm.Remote
