/-
The size intent of a tiled layout and the drag that edits it (`core/master_resize.rs`, `jwm/layout/resize.rs`).
-/
import Jwm.Core.Models

namespace Jwm.ResizeContext

variable {K : Type}

def initial : ResizeContext K := ⟨[], [], none, ⟨0, 0, 0, 0⟩, 0, [], none, false⟩

def cancelDrag (c : ResizeContext K) : ResizeContext K :=
  { c with intent := c.dragSnapshot.getD c.intent, dragSnapshot := none }

def finish (c : ResizeContext K) (cancel : Bool) : ResizeContext K :=
  { c with intent := if cancel then c.cancelDrag.intent else c.intent, dragSnapshot := none }

variable [DecidableEq K]

def syncGroups (c : ResizeContext K) (groups : List (List K)) : ResizeContext K :=
  { if c.groups ≠ groups then c.cancelDrag else c with groups := groups }

def sync (c : ResizeContext K) (topology : List K) (area : Rect) (gap : Int) (frames : List (ResizeFrame K)) :
    ResizeContext K :=
  let c := if c.topology ≠ topology then c.cancelDrag else c
  { c with
    intent := if c.topology.length > 1 ∧ topology.length = 1 ∨ c.intent.any (!topology.contains ·.client) then none
      else c.intent
    topology := topology
    area := area
    gap := max gap 0
    frames := frames }

inductive Event (K : Type)
  | sync (topology : List K) (area : Rect) (gap : Int) (frames : List (ResizeFrame K))
  | syncGroups (groups : List (List K))
  | arm
  | change (intent : ResizeIntent K)
  | finish (cancel : Bool)
  | remove

/-- `arm` and `finish` are those of `arm_tiled_resize` and `finish_tiled_resize`; an edit names a client of the layout. -/
def step (c : ResizeContext K) : Event K → ResizeContext K
  | .sync topology area gap frames => c.sync topology area gap frames
  | .syncGroups groups => c.syncGroups groups
  | .arm => { c with dragSnapshot := some c.intent, preparing := false }
  | .change intent => if intent.client ∈ c.topology then { c with intent := some intent } else c
  | .finish cancel => c.finish cancel
  | .remove => initial

def Remembers (c : ResizeContext K) (i : ResizeIntent K) : Prop := c.intent = some i ∨ c.dragSnapshot = some (some i)

def Anchored (c : ResizeContext K) : Prop := ∀ i, c.Remembers i → i.client ∈ c.topology

/-- A drag in this layout and grouping goes on. -/
def Keeps (c : ResizeContext K) : Event K → Prop
  | .sync topology _ _ _ => topology = c.topology
  | .syncGroups groups => groups = c.groups
  | .change _ => True
  | .arm | .finish _ | .remove => False

/-! ## One step -/

variable {c : ResizeContext K} {i : ResizeIntent K}

theorem cancelDrag_remembers {K : Type} {c : ResizeContext K} {i : ResizeIntent K} (h : c.cancelDrag.intent = some i) :
    c.Remembers i := by
  cases hs : c.dragSnapshot with
  | none => exact .inl (by simpa [cancelDrag, hs] using h)
  | some original => exact .inr (by simpa [cancelDrag, hs] using h)

section Sync

variable (c : ResizeContext K) (topology : List K) (area : Rect) (gap : Int) (frames : List (ResizeFrame K))

/-- A new topology brings the armed intent back, if its client is still there and not left alone. -/
theorem sync_intent : (c.sync topology area gap frames).intent =
    if c.topology.length > 1 ∧ topology.length = 1 then none
    else (if c.topology ≠ topology then c.cancelDrag.intent else c.intent).filter (topology.contains ·.client) := by
  have hfilter : ∀ o : Option (ResizeIntent K), (if c.topology.length > 1 ∧ topology.length = 1 ∨
      o.any (!topology.contains ·.client) then none else o) = if c.topology.length > 1 ∧ topology.length = 1 then none
      else o.filter (topology.contains ·.client) := by
    rintro (_ | i)
    · simp
    · by_cases h : i.client ∈ topology <;> simp [h, Option.filter_some]
  by_cases h : c.topology ≠ topology
  · simp only [sync, if_pos h]
    exact hfilter c.cancelDrag.intent
  · simp only [sync, if_neg h]
    exact hfilter c.intent

theorem sync_dragSnapshot : (c.sync topology area gap frames).dragSnapshot =
    if c.topology ≠ topology then none else c.dragSnapshot := by
  unfold sync
  split <;> rfl

end Sync

/-- What a step leaves was there before or is set by it, and stands in the topology it leaves. -/
theorem step_remembers {e : Event K} (h : (c.step e).Remembers i) : (c.Remembers i ∨ e = .change i) ∧
    (i.client ∈ (c.step e).topology ∨ c.Remembers i ∧ (c.step e).topology = c.topology) := by
  cases e with
  | sync topology area gap frames =>
    rcases h with h | h
    · rw [step, sync_intent] at h
      split at h
      · cases h
      · obtain ⟨hi, hm⟩ := Option.filter_eq_some_iff.1 h
        refine ⟨.inl ?_, .inl (List.contains_iff_mem.1 hm)⟩
        split at hi
        · exact cancelDrag_remembers hi
        · exact .inl hi
    · rw [step, sync_dragSnapshot] at h
      split at h
      · cases h
      · rename_i ht
        exact ⟨.inl (.inr h), .inr ⟨.inr h, (not_not.1 ht).symm⟩⟩
  | syncGroups groups =>
    simp only [step, syncGroups] at h ⊢
    split at h
    · have hc : c.Remembers i := h.elim cancelDrag_remembers fun h => by cases h
      exact ⟨.inl hc, .inr ⟨hc, by split <;> rfl⟩⟩
    · exact ⟨.inl h, .inr ⟨h, by split <;> rfl⟩⟩
  | arm =>
    have hc : c.Remembers i := .inl (h.elim id Option.some.inj)
    exact ⟨.inl hc, .inr ⟨hc, rfl⟩⟩
  | change intent =>
    simp only [step] at h ⊢
    split at h
    · rename_i hm
      rcases h with h | h
      · cases h
        exact ⟨.inr rfl, .inl (by rwa [if_pos hm])⟩
      · exact ⟨.inl (.inr h), .inr ⟨.inr h, by rw [if_pos hm]⟩⟩
    · exact ⟨.inl h, .inr ⟨h, by split <;> rfl⟩⟩
  | finish cancel =>
    have hc : c.Remembers i := by
      have hi := h.resolve_right fun h => by cases h
      cases cancel with
      | true => exact cancelDrag_remembers hi
      | false => exact .inl hi
    exact ⟨.inl hc, .inr ⟨hc, rfl⟩⟩
  | remove => exact h.elim (fun h => by cases h) fun h => by cases h

/-! ## Runs -/

theorem run_remembers : ∀ (events : List (Event K)) {c : ResizeContext K}, (events.foldl step c).Remembers i →
    c.Remembers i ∨ .change i ∈ events
  | [], _, h => .inl h
  | _ :: events, _, h => by
    rcases run_remembers events h with h | h
    · exact (step_remembers h).1.imp id fun h => List.mem_cons.2 (.inl h.symm)
    · exact .inr (List.mem_cons_of_mem _ h)

theorem run_anchored : ∀ (events : List (Event K)) {c : ResizeContext K}, c.Anchored → (events.foldl step c).Anchored
  | [], _, h => h
  | _ :: events, _, h => run_anchored events fun i hi =>
    (step_remembers hi).2.elim id fun ⟨hc, ht⟩ => ht ▸ h i hc

/-- `d` is in the drag armed in `c`. -/
def Drags (c d : ResizeContext K) : Prop :=
  d.topology = c.topology ∧ d.groups = c.groups ∧ d.dragSnapshot = some c.intent

theorem run_drags : ∀ (events : List (Event K)) {d : ResizeContext K}, (∀ e ∈ events, c.Keeps e) → c.Drags d →
    c.Drags (events.foldl step d)
  | [], _, _, h => h
  | e :: events, d, hk, ⟨ht, hg, hs⟩ => by
    obtain ⟨he, hk⟩ := List.forall_mem_cons.1 hk
    refine run_drags events hk ?_
    cases e with
    | sync topology area gap frames =>
      cases he
      simp only [Drags, step, sync, ht, ne_eq, not_true, if_false]
      exact ⟨trivial, hg, hs⟩
    | syncGroups groups =>
      cases he
      simp only [Drags, step, syncGroups, hg, ne_eq, not_true, if_false]
      exact ⟨ht, trivial, hs⟩
    | change intent =>
      simp only [step]
      split <;> exact ⟨ht, hg, hs⟩
    | arm | finish cancel | remove => cases he

/-- From an empty context: what is remembered names a client of the layout; a change of topology or grouping in a drag
brings back the intent it was armed with; what a sync drops needs a new edit. The layout is the one of the latest sync. -/
theorem tiled_resize_intent (events : List (Event K)) :
    let c := events.foldl step initial
    (c.Anchored ∧ ∀ topology area gap frames, (c.sync topology area gap frames).topology = topology) ∧
    (∀ mid : List (Event K), (∀ e ∈ mid, c.Keeps e) →
      let drag := mid.foldl step (c.step .arm)
      (∀ topology area gap frames, topology ≠ c.topology → (drag.sync topology area gap frames).intent =
        if c.topology.length > 1 ∧ topology.length = 1 then none else c.intent.filter (topology.contains ·.client)) ∧
      ∀ groups, groups ≠ c.groups → (drag.syncGroups groups).intent = c.intent) ∧
    ∀ i topology area gap frames, c.intent = some i ∨ topology ≠ c.topology →
      let dropped := c.sync topology area gap frames
      dropped.intent ≠ some i → ∀ later : List (Event K), .change i ∉ later → ¬ (later.foldl step dropped).Remembers i := by
  have hanchored := run_anchored events (c := initial) fun i hi => hi.elim (fun h => by cases h) fun h => by cases h
  simp only
  generalize events.foldl step initial = c at hanchored ⊢
  refine ⟨⟨hanchored, fun _ _ _ _ => rfl⟩, fun mid hk => ?_, fun i topology area gap frames hd hi later hl hr => ?_⟩
  · obtain ⟨ht, hg, hs⟩ := run_drags mid hk (d := c.step .arm) ⟨rfl, rfl, rfl⟩
    refine ⟨fun topology area gap frames hne => ?_, fun groups hne => ?_⟩
    · rw [sync_intent, ht, if_pos hne.symm, cancelDrag, hs]
      rfl
    · rw [syncGroups, hg, if_pos hne.symm, cancelDrag, hs]
      rfl
  · rcases (run_remembers later hr).resolve_right hl with h | h
    · exact hi h
    · rw [sync_dragSnapshot] at h
      split at h
      · cases h
      · rename_i ht
        rw [not_not] at ht
        have hc := hd.resolve_right (not_not.2 ht.symm)
        refine hi ?_
        rw [sync_intent, if_neg (by rw [ht]; omega), if_neg (not_not.2 ht), hc]
        exact Option.filter_some_pos (List.contains_iff_mem.2 (ht ▸ hanchored i (.inl hc)))

/-- A third window appears while the first one is dragged: the size from before the drag is back. -/
theorem tiled_resize_intent_drag : let area : Rect := ⟨0, 0, 1000, 800⟩
    let c := [Event.sync [1, 2] area 0 [], .change ⟨1, 0.5, 1⟩].foldl step (initial (K := Nat))
    let drag := [Event.change ⟨1, 0.75, 1⟩, .sync [1, 2] area 8 []].foldl step (c.step .arm)
    (drag.sync [1, 2, 3] area 8 []).intent = some ⟨1, 0.5, 1⟩ := by
  intro area c drag
  have hsame : c.Keeps (.sync [1, 2] area 8 []) := (rfl : [1, 2] = c.topology)
  have hdrag := (tiled_resize_intent [Event.sync [1, 2] area 0 [], .change ⟨1, 0.5, 1⟩]).2.1
    [.change ⟨1, 0.75, 1⟩, .sync [1, 2] area 8 []] (List.forall_mem_cons.2 ⟨trivial, List.forall_mem_singleton.2 hsame⟩)
  exact (hdrag.1 [1, 2, 3] area 8 [] (by decide)).trans rfl

end Jwm.ResizeContext
