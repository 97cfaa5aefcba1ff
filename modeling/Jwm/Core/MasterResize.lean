/-
Resized frames (`core/master_resize.rs`): the plan of an intent and the centring of a group.
-/
import Jwm.Core.Models
import Jwm.Core.SizeHints
import Mathlib.Data.Option.Basic
import Mathlib.Order.Bounds.Defs
import Mathlib.Order.MinMax

namespace Jwm

variable {K : Type}

namespace ResizeFrame

def outerRight (f : ResizeFrame K) : Int := f.rect.x + f.rect.w + 2 * max f.border 0

def outerBottom (f : ResizeFrame K) : Int := f.rect.y + f.rect.h + 2 * max f.border 0

def translate (delta : Int) (f : ResizeFrame K) : ResizeFrame K := { f with rect := { f.rect with x := f.rect.x + delta } }

theorem outerRight_translate (delta : Int) (f : ResizeFrame K) : (f.translate delta).outerRight = f.outerRight + delta := by
  change f.rect.x + delta + f.rect.w + 2 * max f.border 0 = _
  unfold outerRight
  omega

end ResizeFrame

open ResizeFrame I32

def boundedGap (area : Rect) (gap : Int) : Int := max 0 (min gap (min (max area.w 0) (max area.h 0) / 2))

/-- The fold over the frames, from `i64::MAX` and `i64::MIN`. -/
def extent (frames : List (ResizeFrame K)) : Int × Int :=
  frames.foldl (fun lr f => (min lr.1 f.rect.x, max lr.2 f.outerRight)) (2 ^ 63 - 1, -2 ^ 63)

/-- `center_group`, with the frames it leaves. No `i64` operation leaves its range, as all fields are `i32`. -/
def centerGroup [DecidableEq K] (area : Rect) (gap : Int) (frames : List (ResizeFrame K)) (group : List K) : Bool × List (ResizeFrame K) :=
  let (left, right) := extent (frames.filter (group.contains ·.client))
  if left = 2 ^ 63 - 1 then (false, frames)
  else
    let gap := boundedGap area gap
    let available := area.w - 2 * gap
    if right - left > available ∨ available < 1 then (false, frames)
    else
      let delta := area.x + gap + (available - (right - left)) / 2 - left
      if frames.any fun f => ¬ (min ≤ f.rect.x + delta ∧ f.rect.x + delta ≤ max) then (false, frames)
      else (true, frames.map (ResizeFrame.translate delta))

/-! ## The extent -/

theorem foldl_extent : ∀ (frames : List (ResizeFrame K)) (lr : Int × Int),
    let r := frames.foldl (fun lr f => (min lr.1 f.rect.x, max lr.2 f.outerRight)) lr
    (r.1 ≤ lr.1 ∧ ∀ f ∈ frames, r.1 ≤ f.rect.x) ∧ (r.1 = lr.1 ∨ ∃ f ∈ frames, f.rect.x = r.1) ∧
    (lr.2 ≤ r.2 ∧ ∀ f ∈ frames, f.outerRight ≤ r.2) ∧ (r.2 = lr.2 ∨ ∃ f ∈ frames, f.outerRight = r.2)
  | [], lr => by simp
  | f :: frames, lr => by
    obtain ⟨⟨h1, h1'⟩, h2, ⟨h3, h3'⟩, h4⟩ := foldl_extent frames (min lr.1 f.rect.x, max lr.2 f.outerRight)
    simp only [List.foldl_cons, List.forall_mem_cons, List.exists_mem_cons_iff]
    refine ⟨⟨h1.trans (min_le_left ..), h1.trans (min_le_right ..), h1'⟩, ?_,
      ⟨(le_max_left ..).trans h3, (le_max_right ..).trans h3, h3'⟩, ?_⟩
    · rcases h2 with h2 | h2
      · exact (min_choice lr.1 f.rect.x).imp h2.trans fun h => .inl (h2.trans h).symm
      · exact .inr (.inr h2)
    · rcases h4 with h4 | h4
      · exact (max_choice lr.2 f.outerRight).imp h4.trans fun h => .inl (h4.trans h).symm
      · exact .inr (.inr h4)

/-! ## Centring -/

/-- Either nothing moves, or every frame moves by the same amount, within `i32`, and the outer interval of the group
lies in the padded area with margins that differ by one pixel at most. -/
theorem centerGroup_rigid [DecidableEq K] (area : Rect) (gap : Int) (frames : List (ResizeFrame K)) (group : List K)
    (hframes : ∀ f ∈ frames, I32.Holds f.rect.x ∧ I32.Holds f.rect.w) :
    centerGroup area gap frames group = (false, frames) ∨
    ∃ delta left right, centerGroup area gap frames group = (true, frames.map (ResizeFrame.translate delta)) ∧
      (∀ f ∈ frames, I32.Holds (f.rect.x + delta)) ∧
      IsLeast {x | ∃ f ∈ frames.map (ResizeFrame.translate delta), f.client ∈ group ∧ f.rect.x = x} left ∧
      IsGreatest {x | ∃ f ∈ frames.map (ResizeFrame.translate delta), f.client ∈ group ∧ f.outerRight = x} right ∧
      area.x + boundedGap area gap ≤ left ∧ right ≤ area.x + area.w - boundedGap area gap ∧
      (left - (area.x + boundedGap area gap) - (area.x + area.w - boundedGap area gap - right)).natAbs ≤ 1 := by
  have hfold := foldl_extent (frames.filter (group.contains ·.client)) (2 ^ 63 - 1, -2 ^ 63)
  unfold centerGroup extent
  generalize (frames.filter (group.contains ·.client)).foldl _ _ = e at hfold ⊢
  obtain ⟨left, right⟩ := e
  obtain ⟨⟨-, hleft⟩, hleft', ⟨-, hright⟩, hright'⟩ := hfold
  simp only [List.mem_filter, List.contains_iff_mem] at hleft hleft' hright hright' ⊢
  split_ifs with hnone hwide hout
  · exact .inl rfl
  · exact .inl rfl
  · exact .inl rfl
  · obtain ⟨f, ⟨hf, hclient⟩, hx⟩ := hleft'.resolve_left hnone
    obtain ⟨g, ⟨hg, hclient'⟩, hx'⟩ := hright'.resolve_left fun h => by
      have := hright f ⟨hf, hclient⟩
      have := (hframes f hf).1.1
      have := (hframes f hf).2.1
      unfold outerRight I32.min at *
      omega
    generalize hdelta : area.x + boundedGap area gap + _ - left = delta at hout ⊢
    have hfits : ∀ f ∈ frames, I32.Holds (f.rect.x + delta) := by simpa [I32.Holds] using hout
    refine .inr ⟨delta, left + delta, right + delta, rfl, hfits,
      ⟨⟨_, List.mem_map_of_mem hf, hclient, congrArg (· + delta) hx⟩, ?_⟩,
      ⟨⟨_, List.mem_map_of_mem hg, hclient', by rw [outerRight_translate, hx']⟩, ?_⟩, by omega, by omega, by omega⟩
    · rintro _ ⟨_, hm, hc, rfl⟩
      obtain ⟨f, hf, rfl⟩ := List.mem_map.1 hm
      exact Int.add_le_add_right (hleft f ⟨hf, hc⟩) delta
    · rintro _ ⟨_, hm, hc, rfl⟩
      obtain ⟨f, hf, rfl⟩ := List.mem_map.1 hm
      rw [outerRight_translate]
      exact Int.add_le_add_right (hright f ⟨hf, hc⟩) delta

theorem centerGroup_rigid_pair : ∃ delta, centerGroup (K := Nat) ⟨0, 0, 1000, 800⟩ 10
    [⟨1, ⟨-40, 0, 300, 200⟩, 2⟩, ⟨2, ⟨270, 0, 301, 200⟩, 2⟩] [2] =
    (true, [⟨1, ⟨-40, 0, 300, 200⟩, 2⟩, ⟨2, ⟨270, 0, 301, 200⟩, 2⟩].map (ResizeFrame.translate delta)) := by
  obtain ⟨delta, -, -, h, -⟩ := (centerGroup_rigid (K := Nat) ⟨0, 0, 1000, 800⟩ 10
    [⟨1, ⟨-40, 0, 300, 200⟩, 2⟩, ⟨2, ⟨270, 0, 301, 200⟩, 2⟩] [2] (by unfold I32.Holds; decide)).resolve_left (by decide)
  exact ⟨delta, h⟩

/-! ## Plans -/

def outerOverlap (a b : ResizeFrame K) : Bool :=
  a.rect.x < b.outerRight && b.rect.x < a.outerRight && a.rect.y < b.outerBottom && b.rect.y < a.outerBottom

/-- What `exact_plan` is called with. `coordinates` stands for the axis maps: the rounded `x`, `y`, `w` and `h` of a frame,
or nothing when one is not finite. -/
structure PlanInput (K : Type) where
  area : Rect
  frames : List (ResizeFrame K)
  fit : K → Int → Int → Int × Int
  coordinates : ResizeIntent K → ResizeFrame K → Option (Int × Int × Int × Int)

namespace PlanInput

def planFrame (p : PlanInput K) (intent : ResizeIntent K) (f : ResizeFrame K) : Option (ResizeFrame K) := do
  let (x, y, w, h) ← p.coordinates intent f
  guard (1 ≤ w ∧ 1 ≤ h ∧ w ≤ 65535 ∧ h ≤ 65535 ∧ min ≤ x ∧ x ≤ max ∧ min ≤ y ∧ y ≤ max)
  let (fw, fh) := p.fit f.client w h
  guard (1 ≤ fw ∧ 1 ≤ fh ∧ fw ≤ w ∧ fh ≤ h)
  some { f with rect := ⟨saturatingAdd x ((w - fw) / 2), saturatingAdd y ((h - fh) / 2), fw, fh⟩ }

/-- The planned frame keeps its client and border and lies within the box offered to it. -/
def Fits (p : PlanInput K) (intent : ResizeIntent K) (f g : ResizeFrame K) : Prop :=
  g.client = f.client ∧ g.border = f.border ∧ ∃ x y w h, p.coordinates intent f = some (x, y, w, h) ∧
    (1 ≤ g.rect.w ∧ g.rect.w ≤ w ∧ w ≤ 65535) ∧ 1 ≤ g.rect.h ∧ g.rect.h ≤ h ∧ h ≤ 65535

theorem planFrame_fits {p : PlanInput K} {intent : ResizeIntent K} {f g : ResizeFrame K}
    (h : p.planFrame intent f = some g) : p.Fits intent f g := by
  obtain ⟨⟨x, y, w, height⟩, hc, h⟩ := Option.bind_eq_some_iff.1 h
  obtain ⟨_, hbox, h⟩ := Option.bind_eq_some_iff.1 h
  obtain ⟨_, hfit, h⟩ := Option.bind_eq_some_iff.1 h
  obtain ⟨-, -, hw, hh, -⟩ := (Option.guard_eq_some' ()).1 hbox
  obtain ⟨hfw, hfh, hfw', hfh'⟩ := (Option.guard_eq_some' ()).1 hfit
  cases h
  exact ⟨rfl, rfl, x, y, w, height, hc, ⟨hfw, hfw', hw⟩, hfh, hfh', hh⟩

theorem mapM_forall₂ {α β : Type} {f : α → Option β} {R : α → β → Prop} (hf : ∀ a b, f a = some b → R a b) :
    ∀ {l : List α} {l' : List β}, l.mapM f = some l' → List.Forall₂ R l l'
  | [], _, h => by
    cases h
    exact .nil
  | a :: l, _, h => by
    rw [List.mapM_cons] at h
    obtain ⟨b, hb, h⟩ := Option.bind_eq_some_iff.1 h
    obtain ⟨l', hl, h⟩ := Option.bind_eq_some_iff.1 h
    cases h
    exact .cons (hf a b hb) (mapM_forall₂ hf hl)

variable [DecidableEq K]

def exactPlan (p : PlanInput K) (intent : ResizeIntent K) : Option (List (ResizeFrame K)) := do
  guard (0 < p.area.w ∧ 0 < p.area.h ∧ intent.width.isFinite ∧ intent.height.isFinite ∧ 0 ≤ intent.width ∧
    intent.width ≤ 1 ∧ 0 ≤ intent.height ∧ intent.height ≤ 1 ∧ p.frames.any (·.client = intent.client))
  let out ← p.frames.mapM (p.planFrame intent)
  guard ((p.frames.zip out).Pairwise fun a b => outerOverlap a.1 b.1 ∨ ¬ outerOverlap a.2 b.2)
  some out

abbrev Best (K : Type) := ResizeIntent K × List (ResizeFrame K)

/-- One halving of the segment between `s.1` and `s.2`, and the best plan so far. -/
def bisect (p : PlanInput K) (start wanted : ResizeIntent K) (s : (Float × Float) × Best K) : (Float × Float) × Best K :=
  let t := (s.1.1 + s.1.2) / 2
  let intent := ⟨wanted.client, start.width + (wanted.width - start.width) * t,
    start.height + (wanted.height - start.height) * t⟩
  match p.exactPlan intent with
  | some plan => ((t, s.1.2), intent, plan)
  | none => ((s.1.1, t), s.2)

def boundedPlan (p : PlanInput K) (start wanted : ResizeIntent K) : Option (Best K) :=
  if start.client ≠ wanted.client ∨ ¬ wanted.width.isFinite ∨ ¬ wanted.height.isFinite then none
  else match p.exactPlan wanted with
    | some plan => some (wanted, plan)
    | none => (p.exactPlan start).map fun plan => ((p.bisect start wanted)^[32] ((0, 1), start, plan)).2

variable {p : PlanInput K}

theorem exactPlan_spec {intent : ResizeIntent K} {plan : List (ResizeFrame K)} (h : p.exactPlan intent = some plan) :
    List.Forall₂ (p.Fits intent) p.frames plan ∧
    (p.frames.zip plan).Pairwise fun a b => outerOverlap a.2 b.2 → outerOverlap a.1 b.1 := by
  obtain ⟨_, -, h⟩ := Option.bind_eq_some_iff.1 h
  obtain ⟨out, hout, h⟩ := Option.bind_eq_some_iff.1 h
  obtain ⟨_, hpairs, h⟩ := Option.bind_eq_some_iff.1 h
  cases h
  exact ⟨mapM_forall₂ (fun _ _ => planFrame_fits) hout,
    ((Option.guard_eq_some' ()).1 hpairs).imp fun hpair hoverlap => hpair.resolve_right (not_not.2 hoverlap)⟩

theorem bisect_exact {start wanted : ResizeIntent K} (n : Nat) (s : (Float × Float) × Best K)
    (h : p.exactPlan s.2.1 = some s.2.2) :
    let best := ((p.bisect start wanted)^[n] s).2
    p.exactPlan best.1 = some best.2 := by
  induction n generalizing s with
  | zero => exact h
  | succ n ih =>
    refine ih (p.bisect start wanted s) ?_
    unfold bisect
    dsimp only
    split
    · assumption
    · exact h

/-- What is returned is the exact plan of its intent and overlaps nowhere anew; nothing is returned only when the wanted
intent is of no use, or neither end has a plan. -/
theorem boundedPlan_sound (p : PlanInput K) (start wanted : ResizeIntent K) :
    (∀ intent plan, p.boundedPlan start wanted = some (intent, plan) → p.exactPlan intent = some plan ∧
      List.Forall₂ (p.Fits intent) p.frames plan ∧
      (p.frames.zip plan).Pairwise fun a b => outerOverlap a.2 b.2 → outerOverlap a.1 b.1) ∧
    (p.boundedPlan start wanted = none →
      (start.client ≠ wanted.client ∨ ¬ wanted.width.isFinite ∨ ¬ wanted.height.isFinite) ∨
      p.exactPlan wanted = none ∧ p.exactPlan start = none) := by
  unfold boundedPlan
  by_cases huseless : start.client ≠ wanted.client ∨ ¬ wanted.width.isFinite ∨ ¬ wanted.height.isFinite
  · rw [if_pos huseless]
    exact ⟨fun _ _ h => (by cases h), fun _ => .inl huseless⟩
  · rw [if_neg huseless]
    cases hwanted : p.exactPlan wanted with
    | some plan =>
      refine ⟨?_, fun h => by cases h⟩
      rintro _ _ ⟨⟩
      exact ⟨hwanted, exactPlan_spec hwanted⟩
    | none =>
      refine ⟨fun intent plan h => ?_, fun h => .inr ⟨rfl, Option.map_eq_none_iff.1 h⟩⟩
      obtain ⟨first, hstart, h⟩ := Option.map_eq_some_iff.1 h
      have hexact := @bisect_exact _ _ p start wanted 32 ((0, 1), start, first) hstart
      dsimp only at hexact
      rw [h] at hexact
      exact ⟨hexact, exactPlan_spec hexact⟩

end PlanInput

end Jwm
