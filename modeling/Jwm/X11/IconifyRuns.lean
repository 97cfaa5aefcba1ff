/-
A window iconified is never forgotten unmapped. A step lemma says what each call can do to a window's phase; what
a compositor loss does to the server follows from its mapping loop, and the mapping stays bound to the phase.
-/
import Jwm.X11.Iconify

namespace Jwm

open List Option Mapping IconifyServer MapOutcome IconifyWorld

variable {E : Type}

/-! ## The coordinator's operations -/

namespace IconifyCoordinator

variable {c : IconifyCoordinator} {window generation : Nat}

theorem phase_insert (window v : Nat) (p : IconifyPhase) :
    phase ⟨c.phases.insert window p⟩ v = if v = window then some p else c.phase v :=
  KeyMap.get?_insert _ _ _ _

theorem phase_remove (window v : Nat) : phase ⟨c.phases.remove window⟩ v = if v = window then none else c.phase v :=
  KeyMap.get?_remove _ _ _

theorem generationOf_eq_some : c.generationOf window = some generation ↔
    c.phase window = some (.unmapSent generation) ∨ c.phase window = some (.iconic generation) := by
  unfold generationOf
  cases c.phase window with
  | none => simp
  | some p =>
    cases p with
    | awaitingAdmission | unmapSent g | iconic g => simp [IconifyPhase.generation]

theorem phase_request (window v : Nat) : (c.request window).1.phase v =
    if v = window ∧ c.phase window = none then some .awaitingAdmission else c.phase v := by
  unfold request
  cases hp : c.phase window with
  | none =>
    rw [phase_insert]
    simp
  | some p =>
    rw [if_neg fun h => some_ne_none p h.2]

theorem markUnmapSent_awaiting (hgeneration : generation ≠ 0) (h : c.phase window = some .awaitingAdmission) (v : Nat) :
    (c.markUnmapSent window generation).1.phase v =
      if v = window then some (.unmapSent generation) else c.phase v := by
  unfold markUnmapSent
  rw [if_neg (not_or.2 ⟨hgeneration, not_not.2 h⟩)]
  exact phase_insert _ _ _

theorem phase_acknowledge (window generation v : Nat) : (c.acknowledge window generation).1.phase v =
    if v = window ∧ c.phase window = some (.unmapSent generation) then some (.iconic generation) else c.phase v := by
  unfold acknowledge
  split
  · rename_i expected hp
    rw [hp]
    split
    · rename_i heq
      rw [phase_insert, heq]
      simp
    · rename_i hne
      rw [if_neg fun h => hne ?_]
      simpa using h.2.symm
  · rename_i expected hp
    have hskip : ¬(v = window ∧ c.phase window = some (.unmapSent generation)) := by
      rw [hp]
      simp
    rw [if_neg hskip]
    split
    · rfl
    · rfl
  · rename_i hnot _
    rw [if_neg fun h => hnot _ h.2]

theorem beginCancel_cases (c : IconifyCoordinator) (window : Nat) :
    c.phase window = none ∧ c.beginCancel window = (c, .nothing) ∨
    c.phase window = some .awaitingAdmission ∧ c.beginCancel window = (⟨c.phases.remove window⟩, .removedAwaiting) ∨
    ∃ generation, c.generationOf window = some generation ∧
      c.beginCancel window = (c, .mapBeforeRemoving generation) := by
  unfold beginCancel generationOf
  cases c.phase window with
  | none => exact .inl ⟨rfl, rfl⟩
  | some p =>
    cases p with
    | awaitingAdmission => exact .inr (.inl ⟨rfl, rfl⟩)
    | unmapSent generation | iconic generation => exact .inr (.inr ⟨generation, rfl, rfl⟩)

theorem finishMappedCancel_own (h : c.generationOf window = some generation) (v : Nat) :
    (c.finishMappedCancel window generation).phase v = if v = window then none else c.phase v := by
  unfold finishMappedCancel
  rw [if_pos h]
  exact phase_remove _ _

theorem mem_remapBeforeCompositorLoss :
    (window, generation) ∈ c.remapBeforeCompositorLoss ↔ c.generationOf window = some generation := by
  unfold remapBeforeCompositorLoss generationOf phase
  rw [mem_insertionSort, mem_filterMap]
  constructor
  · rintro ⟨⟨v, p⟩, hmem, heq⟩
    obtain ⟨g, hg, hpair⟩ := map_eq_some_iff.1 heq
    obtain ⟨rfl, rfl⟩ := hpair
    rw [KeyMap.get?_eq_some.2 hmem]
    exact hg
  · intro h
    obtain ⟨p, hp, hg⟩ := bind_eq_some_iff.1 h
    refine ⟨(window, p), KeyMap.get?_eq_some.1 hp, ?_⟩
    dsimp only
    rw [hg]
    rfl

theorem phase_markAll (windows : List Remap) (c : IconifyCoordinator) (v : Nat) :
    (windows.foldl (fun c e => c.markAwaitingAfterCompositorLoss e.window e.generation) c).phase v =
      if ∃ e ∈ windows, e.window = v ∧ c.generationOf v = some e.generation then some .awaitingAdmission
      else c.phase v := by
  induction windows generalizing c with
  | nil => simp
  | cons e rest ih =>
    rw [foldl_cons, ih]
    unfold markAwaitingAfterCompositorLoss
    split
    · rename_i hown
      by_cases hv : e.window = v
      · -- its own mark: no later one matches any more
        subst hv
        have hmarked : phase ⟨c.phases.insert e.window .awaitingAdmission⟩ e.window = some .awaitingAdmission := by
          rw [phase_insert, if_pos rfl]
        rw [hmarked, ite_self]
        exact (if_pos ⟨e, mem_cons_self, rfl, hown⟩).symm
      · have hsame : phase ⟨c.phases.insert e.window .awaitingAdmission⟩ v = c.phase v := by
          rw [phase_insert, if_neg (Ne.symm hv)]
        have hgen : generationOf ⟨c.phases.insert e.window .awaitingAdmission⟩ v = c.generationOf v := by
          unfold generationOf
          rw [hsame]
        rw [hsame, hgen]
        refine if_congr ⟨fun ⟨f, hf, h⟩ => ⟨f, mem_cons_of_mem _ hf, h⟩, ?_⟩ rfl rfl
        rintro ⟨f, hf, h⟩
        rcases mem_cons.1 hf with rfl | hf
        · exact absurd h.1 hv
        · exact ⟨f, hf, h⟩
    · rename_i hother
      refine if_congr ⟨fun ⟨f, hf, h⟩ => ⟨f, mem_cons_of_mem _ hf, h⟩, ?_⟩ rfl rfl
      rintro ⟨f, hf, rfl, h⟩
      rcases mem_cons.1 hf with rfl | hf
      · exact absurd h hother
      · exact ⟨f, hf, rfl, h⟩

end IconifyCoordinator

/-! ## The mapping loop -/

section Loop

variable {outcome : Nat → MapOutcome E} {s s' : IconifyServer}

theorem mapping_set (s : IconifyServer) (window v : Nat) (m : Mapping) :
    (s.set window m).mapping v = if v = window then m else s.mapping v := by
  show Function.update s.mapping window m v = _
  rw [Function.update_apply]

/-- A window that is unmapped after a map was not the one mapped. -/
theorem unmapped_of_set {window v generation : Nat} (h : (s.set window .mapped).mapping v = .unmapped generation) :
    v ≠ window ∧ s.mapping v = .unmapped generation := by
  rw [mapping_set] at h
  split at h
  · exact Mapping.noConfusion h
  · rename_i hother
    exact ⟨hother, h⟩

theorem unmapped_of_attempt {mapped : Bool} {window v generation : Nat}
    (h : (if mapped then s.set window .mapped else s).mapping v = .unmapped generation) : s.mapping v = .unmapped generation := by
  cases mapped with
  | false => exact h
  | true => exact (unmapped_of_set h).2

/-- A rollback unmaps its windows under their generations and touches no other. -/
theorem rollbackAll_mapping (confirmed : List Remap) (s : IconifyServer) (v : Nat) : (∃ e ∈ confirmed, e.window = v ∧
      (rollbackAll unmap confirmed s).mapping v = .unmapped e.generation) ∨
    (∀ e ∈ confirmed, e.window ≠ v) ∧ (rollbackAll unmap confirmed s).mapping v = s.mapping v := by
  unfold rollbackAll
  rw [foldl_reverse]
  induction confirmed with
  | nil => exact .inr ⟨fun e he => (not_mem_nil he).elim, rfl⟩
  | cons e rest ih =>
    rw [foldr_cons]
    unfold unmap at ih ⊢
    rw [mapping_set]
    by_cases hv : v = e.window
    · rw [if_pos hv]
      exact .inl ⟨e, mem_cons_self, hv.symm, rfl⟩
    · rw [if_neg hv]
      rcases ih with ⟨f, hf, heq, hmapping⟩ | ⟨hnone, hmapping⟩
      · exact .inl ⟨f, mem_cons_of_mem _ hf, heq, hmapping⟩
      · exact .inr ⟨forall_mem_cons.2 ⟨Ne.symm hv, hnone⟩, hmapping⟩

theorem rollbackAll_reserved (confirmed : List Remap) (s : IconifyServer) :
    (rollbackAll unmap confirmed s).reserved = s.reserved := by
  unfold rollbackAll
  rw [foldl_reverse]
  induction confirmed with
  | nil => rfl
  | cons e rest ih => exact ih

/-- What a failed loss leaves of a window's mapping: what it was, the unmap of its own generation again, or a
map whose reply said that the window is not viewable. -/
def PutBack (outcome : Nat → MapOutcome E) (targets : List Remap) (s s' : IconifyServer) (v : Nat) : Prop :=
  s'.mapping v = s.mapping v ∨ (∃ e ∈ targets, e.window = v ∧ s'.mapping v = .unmapped e.generation) ∨
    ∃ error, outcome v = .notViewable error true ∧ s'.mapping v = .mapped

/-- A loss that fails after `confirmed` have been mapped. -/
theorem putBack_rollback {confirmed targets : List Remap} {v : Nat} (hsub : ∀ e ∈ confirmed, e ∈ targets)
    (hlast : (∀ e ∈ confirmed, e.window ≠ v) → PutBack outcome targets s s' v) :
    PutBack outcome targets s (rollbackAll unmap confirmed s') v := by
  rcases rollbackAll_mapping confirmed s' v with ⟨e, he, heq, hmapping⟩ | ⟨hnone, hmapping⟩
  · exact .inr (.inl ⟨e, hsub e he, heq, hmapping⟩)
  · unfold PutBack
    rw [hmapping]
    exact hlast hnone

theorem mapAll_cases (outcome : Nat → MapOutcome E) (s₀ : IconifyServer) :
    ∀ (rest confirmed : List Remap) (s : IconifyServer), s.reserved = s₀.reserved →
      (∀ v, s.mapping v = if ∃ e ∈ confirmed, e.window = v then .mapped else s₀.mapping v) →
      (∃ s', mapAll (mapWindow outcome) (verifyViewable outcome) unmap confirmed rest s =
          (s', .ok (confirmed ++ rest)) ∧ s'.reserved = s₀.reserved ∧
        ∀ v, s'.mapping v = if ∃ e ∈ confirmed ++ rest, e.window = v then .mapped else s₀.mapping v) ∨
      ∃ s' error, mapAll (mapWindow outcome) (verifyViewable outcome) unmap confirmed rest s =
          (s', .error error) ∧ s'.reserved = s₀.reserved ∧ ∀ v, PutBack outcome (confirmed ++ rest) s₀ s' v := by
  intro rest
  induction rest with
  | nil =>
    intro confirmed s hreserved hmapping
    rw [append_nil]
    exact .inl ⟨s, rfl, hreserved, hmapping⟩
  | cons e rest ih =>
    intro confirmed s hreserved hmapping
    have hsub : ∀ f ∈ confirmed, f ∈ confirmed ++ e :: rest := fun f hf => mem_append_left _ hf
    -- windows outside `confirmed` are as they were
    have hsame : ∀ v, (∀ f ∈ confirmed, f.window ≠ v) → s.mapping v = s₀.mapping v := by
      intro v hnone
      rw [hmapping v, if_neg fun ⟨f, hf, heq⟩ => hnone f hf heq]
    have hattempt : ∀ (mapped : Bool) (v : Nat), (∀ f ∈ confirmed, f.window ≠ v) →
        (if mapped then s.set e.window .mapped else s).mapping v = s₀.mapping v ∨
          (e.window = v ∧ mapped = true ∧ (if mapped then s.set e.window .mapped else s).mapping v = .mapped) := by
      intro mapped v hnone
      cases mapped with
      | false => exact .inl (hsame v hnone)
      | true =>
        rw [if_pos rfl, mapping_set]
        split
        · rename_i hv
          exact .inr ⟨hv.symm, rfl, rfl⟩
        · exact .inl (hsame v hnone)
    cases houtcome : outcome e.window with
    | mapFailed error =>
      simp only [mapAll, mapWindow, houtcome]
      refine .inr ⟨_, error, rfl, (rollbackAll_reserved _ _).trans hreserved, fun v => ?_⟩
      exact putBack_rollback hsub fun hnone => .inl (hsame v hnone)
    | viewable =>
      simp only [mapAll, mapWindow, verifyViewable, houtcome]
      have hnext := ih (confirmed ++ [e]) (s.set e.window .mapped) hreserved fun v => by
        rw [mapping_set, hmapping v]
        by_cases hv : v = e.window
        · rw [if_pos hv, if_pos ⟨e, by simp, hv.symm⟩]
        · rw [if_neg hv]
          refine if_congr ⟨fun ⟨f, hf, heq⟩ => ⟨f, mem_append_left _ hf, heq⟩, ?_⟩ rfl rfl
          rintro ⟨f, hf, heq⟩
          rcases mem_append.1 hf with hf | hf
          · exact ⟨f, hf, heq⟩
          · exact absurd (mem_singleton.1 hf ▸ heq.symm) hv
      rw [append_assoc, singleton_append] at hnext
      exact hnext
    | notViewable error mapped =>
      simp only [mapAll, mapWindow, verifyViewable, houtcome]
      refine .inr ⟨_, error, rfl, ?_, fun v => putBack_rollback hsub fun hnone => ?_⟩
      · rw [rollbackAll_reserved, ← hreserved]
        cases mapped <;> rfl
      · rcases hattempt mapped v hnone with h | ⟨rfl, rfl, h⟩
        · exact .inl h
        · exact .inr (.inr ⟨error, houtcome, h⟩)
    | queryFailed error mapped =>
      simp only [mapAll, mapWindow, verifyViewable, houtcome]
      refine .inr ⟨_, error, rfl, ?_, fun v => putBack_rollback hsub fun hnone => ?_⟩
      · rw [rollbackAll_reserved, ← hreserved]
        cases mapped <;> rfl
      · unfold PutBack unmap
        rw [mapping_set]
        split
        · rename_i hv
          exact .inr (.inl ⟨e, by simp, hv.symm, rfl⟩)
        · rename_i hv
          rcases hattempt mapped v hnone with h | ⟨heq, -⟩
          · exact .inl h
          · exact absurd heq.symm hv

end Loop

/-! ## A compositor loss -/

/-- Every window with a generation is mapped and awaits admission again, and its reservation is given back. -/
structure LossCommitted (x11 : Nat → Nat) (w w' : IconifyWorld) : Prop where
  phases : ∀ v, w'.coordinator.phase v =
    if (w.coordinator.generationOf v).isSome then some .awaitingAdmission else w.coordinator.phase v
  mapping : ∀ v, w'.server.mapping v =
    if (w.coordinator.generationOf v).isSome then .mapped else w.server.mapping v
  reserved : ∀ r, r ∈ w'.server.reserved ↔ r ∈ w.server.reserved ∧
    ∀ v generation, w.coordinator.generationOf v = some generation → r ≠ (x11 v, generation)

/-- No phase and no reservation has changed, and what was mapped on the way is unmapped again. -/
structure LossRolledBack (outcome : Nat → MapOutcome E) (w w' : IconifyWorld) : Prop where
  phases : w'.coordinator = w.coordinator
  reserved : w'.server.reserved = w.server.reserved
  mapping : ∀ v, w'.server.mapping v = w.server.mapping v ∨
    (∃ generation, w.coordinator.generationOf v = some generation ∧ w'.server.mapping v = .unmapped generation) ∨
    ∃ error, outcome v = .notViewable error true ∧ w'.server.mapping v = .mapped

open IconifyCoordinator

theorem mem_resolved {x11 : Nat → Nat} {w : IconifyWorld} {e : Remap} : e ∈ w.resolved x11 ↔
    w.coordinator.generationOf e.window = some e.generation ∧ e.x11Window = x11 e.window := by
  unfold resolved
  rw [List.mem_map]
  constructor
  · rintro ⟨⟨v, g⟩, hmem, rfl⟩
    exact ⟨mem_remapBeforeCompositorLoss.1 hmem, rfl⟩
  · rintro ⟨hgeneration, hx11⟩
    refine ⟨(e.window, e.generation), mem_remapBeforeCompositorLoss.2 hgeneration, ?_⟩
    cases e
    simp only at hx11
    rw [hx11]

theorem resolved_window {x11 : Nat → Nat} {w : IconifyWorld} {v : Nat} :
    (∃ e ∈ w.resolved x11, e.window = v) ↔ (w.coordinator.generationOf v).isSome := by
  rw [isSome_iff_exists]
  constructor
  · rintro ⟨e, he, rfl⟩
    exact ⟨e.generation, (mem_resolved.1 he).1⟩
  · rintro ⟨generation, h⟩
    exact ⟨{ window := v, x11Window := x11 v, generation := generation }, mem_resolved.2 ⟨h, rfl⟩, rfl⟩

theorem mem_releaseAll (windows : List Remap) (s : IconifyServer) (r : Nat × Nat) :
    r ∈ (windows.foldl (fun s e => release e.x11Window e.generation s) s).reserved ↔
      r ∈ s.reserved ∧ ∀ e ∈ windows, r ≠ (e.x11Window, e.generation) := by
  induction windows generalizing s with
  | nil => simp
  | cons e rest ih =>
    rw [foldl_cons, ih, forall_mem_cons, ← and_assoc]
    refine and_congr_left fun _ => ?_
    show r ∈ s.reserved.filter _ ↔ _
    rw [mem_filter, decide_eq_true_iff]

theorem mapping_releaseAll (windows : List Remap) (s : IconifyServer) :
    (windows.foldl (fun s e => release e.x11Window e.generation s) s).mapping = s.mapping := by
  induction windows generalizing s with
  | nil => rfl
  | cons e rest ih =>
    rw [foldl_cons, ih]
    rfl

theorem compositorLoss_cases (x11 : Nat → Nat) (w : IconifyWorld) (outcome : Nat → MapOutcome E) :
    LossCommitted x11 w (w.step x11 (.compositorLoss outcome)).1 ∧
      (w.step x11 (.compositorLoss outcome)).2 = .finished (.ok ()) ∨
    ∃ error, LossRolledBack outcome w (w.step x11 (.compositorLoss outcome)).1 ∧
      (w.step x11 (.compositorLoss outcome)).2 = .finished (.error error) := by
  dsimp only [IconifyWorld.step]
  unfold prepareCompositorLossTransaction
  have hloop := mapAll_cases outcome w.server (w.resolved x11) [] w.server rfl fun v => by
    rw [if_neg]
    rintro ⟨e, he, -⟩
    exact not_mem_nil he
  rw [nil_append] at hloop
  rcases hloop with ⟨s', heq, hreserved, hmapping⟩ | ⟨s', error, heq, hreserved, hputBack⟩
  · rw [heq]
    refine .inl ⟨⟨fun v => ?_, fun v => ?_, fun r => ?_⟩, rfl⟩
    · refine (phase_markAll _ _ v).trans (if_congr ?_ rfl rfl)
      rw [← @resolved_window x11 _ _]
      refine ⟨fun ⟨e, he, hv, _⟩ => ⟨e, he, hv⟩, ?_⟩
      rintro ⟨e, he, rfl⟩
      exact ⟨e, he, rfl, (mem_resolved.1 he).1⟩
    · rw [mapping_releaseAll, hmapping v]
      exact if_congr resolved_window rfl rfl
    · rw [mem_releaseAll, hreserved]
      refine and_congr_right fun _ => ⟨fun h v generation hgen => ?_, fun h e he => ?_⟩
      · exact h { window := v, x11Window := x11 v, generation := generation } (mem_resolved.2 ⟨hgen, rfl⟩)
      · rw [(mem_resolved.1 he).2]
        exact h e.window e.generation (mem_resolved.1 he).1
  · rw [heq]
    refine .inr ⟨error, ⟨rfl, hreserved, fun v => ?_⟩, rfl⟩
    rcases hputBack v with h | ⟨e, he, rfl, h⟩ | h
    · exact .inl h
    · exact .inr (.inl ⟨e.generation, (mem_resolved.1 he).1, h⟩)
    · exact .inr (.inr h)

/-! ## What a call does to a window -/

/-- A window's phase before and after a call. -/
inductive PhaseStep (call : IconifyCall E) (window : Nat) (p : Option IconifyPhase) : Option IconifyPhase → Prop
  | keep (h : ∀ generation, call = .acknowledge window generation → p ≠ some (.unmapSent generation)) : PhaseStep call window p p
  | drop : PhaseStep call window p none
  | await : PhaseStep call window p (some .awaitingAdmission)
  | sent {generation : Nat} (h : call = .unmap window generation (.ok ())) :
    PhaseStep call window p (some (.unmapSent generation))
  | confirm {generation : Nat} (hcall : call = .acknowledge window generation) (hp : p = some (.unmapSent generation)) :
    PhaseStep call window p (some (.iconic generation))

section Steps

variable {x11 : Nat → Nat} {w : IconifyWorld}

theorem phase_step {call : IconifyCall E} (h : AdmittedCall w call) (v : Nat) :
    PhaseStep call v (w.coordinator.phase v) ((w.step x11 call).1.coordinator.phase v) := by
  cases call with
  | request window =>
    show PhaseStep _ v _ ((w.coordinator.request window).1.phase v)
    rw [phase_request]
    split
    · exact .await
    · exact .keep nofun
  | unmap window generation result =>
    obtain ⟨hphase, hgeneration, -⟩ := h
    cases result with
    | error error => exact .keep nofun
    | ok u =>
      show PhaseStep _ v _ ((w.coordinator.markUnmapSent window generation).1.phase v)
      rw [markUnmapSent_awaiting hgeneration hphase]
      split
      · rename_i hv
        exact .sent (by rw [hv])
      · exact .keep nofun
  | acknowledge window generation =>
    show PhaseStep _ v _ ((w.coordinator.acknowledge window generation).1.phase v)
    rw [phase_acknowledge]
    split
    · rename_i hown
      obtain ⟨rfl, hp⟩ := hown
      exact .confirm rfl hp
    · rename_i hown
      refine .keep fun g heq hp => hown ?_
      obtain ⟨rfl, rfl⟩ := heq
      exact ⟨rfl, hp⟩
  | cancel window outcome =>
    dsimp only [IconifyWorld.step]
    rcases beginCancel_cases w.coordinator window with
      ⟨-, hcancel⟩ | ⟨-, hcancel⟩ | ⟨generation, hgeneration, hcancel⟩
    · rw [hcancel]
      exact .keep nofun
    · rw [hcancel]
      rw [phase_remove]
      split
      · exact .drop
      · exact .keep nofun
    · rw [hcancel]
      dsimp only
      unfold finishCheckedCancel
      split
      · exact .keep nofun
      · split
        · rw [finishMappedCancel_own hgeneration]
          split
          · exact .drop
          · exact .keep nofun
        · exact .keep nofun
        · exact .keep nofun
  | compositorLoss outcome =>
    rcases compositorLoss_cases x11 w outcome with ⟨hloss, -⟩ | ⟨_, hloss, -⟩
    · rw [hloss.phases v]
      split
      · exact .await
      · exact .keep nofun
    · rw [hloss.phases]
      exact .keep nofun
  | retire window =>
    show PhaseStep _ v _ (phase ⟨w.coordinator.phases.remove window⟩ v)
    rw [phase_remove]
    split
    · exact .drop
    · exact .keep nofun
  | manage window => exact .keep nofun

/-- A window unmapped under a generation afterwards was so before, or its phase carries that generation and still
does; only a window that leaves management is exempt. -/
theorem held_step {call : IconifyCall E} (h : AdmittedCall w call)
    (hheld : ∀ v ∉ w.retired, ∀ generation, w.server.mapping v = .unmapped generation →
      w.coordinator.generationOf v = some generation) :
    ∀ v ∉ (w.step x11 call).1.retired, ∀ generation, (w.step x11 call).1.server.mapping v = .unmapped generation →
      (w.step x11 call).1.coordinator.generationOf v = some generation := by
  intro v hv generation hmapping
  cases call with
  | request window =>
    have hold := hheld v hv generation hmapping
    refine Eq.trans ?_ hold
    unfold generationOf at hold ⊢
    show ((w.coordinator.request window).1.phase v).bind _ = _
    rw [phase_request]
    split
    · rename_i hnone
      rw [hnone.1, hnone.2] at hold
      exact absurd hold (by simp)
    · rfl
  | unmap window g result =>
    obtain ⟨hphase, hg, -⟩ := h
    cases result with
    | error error => exact hheld v hv generation hmapping
    | ok u =>
      have hset : ((w.server.set window (.unmapped g)).mapping v) = .unmapped generation := hmapping
      rw [mapping_set] at hset
      show (((w.coordinator.markUnmapSent window g).1.phase v).bind _) = _
      rw [markUnmapSent_awaiting hg hphase]
      by_cases hown : v = window
      · rw [if_pos hown] at hset ⊢
        exact congrArg some (unmapped.inj hset)
      · rw [if_neg hown] at hset ⊢
        exact hheld v hv generation hset
  | acknowledge window g =>
    have hold := hheld v hv generation hmapping
    refine Eq.trans ?_ hold
    unfold generationOf
    show ((w.coordinator.acknowledge window g).1.phase v).bind _ = _
    rw [phase_acknowledge]
    split
    · rename_i hown
      rw [hown.1, hown.2]
      rfl
    · rfl
  | cancel window outcome =>
    dsimp only [IconifyWorld.step] at hv hmapping ⊢
    rcases beginCancel_cases w.coordinator window with
      ⟨-, hcancel⟩ | ⟨hawaiting, hcancel⟩ | ⟨own, hown, hcancel⟩
    · rw [hcancel] at hv hmapping ⊢
      exact hheld v hv generation hmapping
    · rw [hcancel] at hv hmapping ⊢
      have hold := hheld v hv generation hmapping
      have hother : v ≠ window := by
        rintro rfl
        unfold generationOf at hold
        rw [hawaiting] at hold
        exact absurd hold (by simp [IconifyPhase.generation])
      dsimp only [generationOf]
      rw [phase_remove, if_neg hother]
      exact hold
    · rw [hcancel] at hv hmapping ⊢
      cases outcome with
      | mapFailed error => exact hheld v hv generation hmapping
      | viewable =>
        obtain ⟨hother, hset⟩ := unmapped_of_set hmapping
        show ((w.coordinator.finishMappedCancel window own).phase v).bind _ = _
        rw [finishMappedCancel_own hown, if_neg hother]
        exact hheld v hv generation hset
      | notViewable error mapped =>
        -- the phase stays whatever the map has done
        exact hheld v hv generation (unmapped_of_attempt hmapping)
      | queryFailed error mapped =>
        have hset : ((if mapped then w.server.set window .mapped else w.server).set window (.unmapped own)).mapping v =
            .unmapped generation := hmapping
        rw [mapping_set] at hset
        by_cases hother : v = window
        · rw [if_pos hother] at hset
          rw [hother, ← unmapped.inj hset]
          exact hown
        · rw [if_neg hother] at hset
          exact hheld v hv generation (unmapped_of_attempt hset)
  | compositorLoss outcome =>
    have hold := hheld v hv generation
    rcases compositorLoss_cases x11 w outcome with ⟨hloss, -⟩ | ⟨error, hloss, -⟩
    · rw [hloss.mapping v] at hmapping
      split at hmapping
      · exact Mapping.noConfusion hmapping
      · rename_i hnone
        rw [hold hmapping] at hnone
        exact absurd rfl hnone
    · rw [hloss.phases]
      rcases hloss.mapping v with hsame | ⟨g, hg, hunmapped⟩ | ⟨_, -, hmapped⟩
      · exact hold (hsame ▸ hmapping)
      · rw [hg, unmapped.inj (hunmapped.symm.trans hmapping)]
      · exact Mapping.noConfusion (hmapped.symm.trans hmapping)
  | retire window =>
    have hv' : v ∉ window :: w.retired := hv
    obtain ⟨hother, hkept⟩ := not_or.1 (mt mem_cons.2 hv')
    show (phase ⟨w.coordinator.phases.remove window⟩ v).bind _ = _
    rw [phase_remove, if_neg hother]
    exact hheld v hkept generation hmapping
  | manage window =>
    obtain ⟨hother, hset⟩ := unmapped_of_set hmapping
    exact hheld v (fun hretired => hv (mem_filter.2 ⟨hretired, decide_eq_true hother⟩)) generation hset

end Steps

/-! ## Runs -/

/-- After a history: the mapping is bound to the phase, and a window whose unmap is in flight has had no
acknowledgement of it. -/
structure IconifyKept (history : List (IconifyCall E × IconifyAnswer E)) (w : IconifyWorld) : Prop where
  held : ∀ v ∉ w.retired, ∀ generation, w.server.mapping v = .unmapped generation →
    w.coordinator.generationOf v = some generation
  sent : ∀ v generation, w.coordinator.phase v = some (.unmapSent generation) → ∃ earlier since,
    history.map Prod.fst = earlier ++ IconifyCall.unmap v generation (.ok ()) :: since ∧
      IconifyCall.acknowledge v generation ∉ since

theorem iconifyKept_initial : IconifyKept ([] : List (IconifyCall E × IconifyAnswer E)) initial where
  held _ _ generation h := nomatch (show mapped = .unmapped generation from h)
  sent _ generation h := nomatch (show (none : Option IconifyPhase) = some (.unmapSent generation) from h)

theorem IconifyKept.step {x11 : Nat → Nat} {history : List (IconifyCall E × IconifyAnswer E)} {w : IconifyWorld}
    (h : IconifyKept history w) {call : IconifyCall E} (hadmitted : AdmittedCall w call) :
    IconifyKept (history ++ [(call, (w.step x11 call).2)]) (w.step x11 call).1 := by
  refine ⟨held_step hadmitted h.held, fun v generation hsent => ?_⟩
  have hphase := @phase_step _ x11 _ _ hadmitted v
  rw [hsent] at hphase
  rw [map_append, map_cons, map_nil]
  generalize hp : w.coordinator.phase v = p at hphase
  cases hphase with
  | keep hnot =>
    obtain ⟨earlier, since, heq, hnone⟩ := h.sent v generation hp
    refine ⟨earlier, since ++ [call], by rw [heq]; simp, fun hmem => ?_⟩
    rcases mem_append.1 hmem with hmem | hmem
    · exact hnone hmem
    · exact hnot generation (mem_singleton.1 hmem).symm rfl
  | sent hcall => exact ⟨history.map Prod.fst, [], by rw [hcall], not_mem_nil⟩

/-- Along every run whose unmaps are for windows awaiting admission: a managed window is unmapped only under the generation
of its phase and is mapped while it has none; a phase becomes iconic only by the first acknowledgement of its unmap; and a
compositor loss is all or nothing. -/
theorem iconified_never_forgotten (x11 : Nat → Nat) {calls : List (IconifyCall E)}
    (h : Along AdmittedCall (IconifyWorld.step x11) IconifyWorld.initial calls) :
    (∀ v ∉ (after (IconifyWorld.step x11) IconifyWorld.initial calls).retired,
      (∀ generation, (after (IconifyWorld.step x11) IconifyWorld.initial calls).server.mapping v = .unmapped generation →
        (after (IconifyWorld.step x11) IconifyWorld.initial calls).coordinator.phase v = some (.unmapSent generation) ∨
        (after (IconifyWorld.step x11) IconifyWorld.initial calls).coordinator.phase v = some (.iconic generation)) ∧
      ((after (IconifyWorld.step x11) IconifyWorld.initial calls).coordinator.phase v = none ∨
        (after (IconifyWorld.step x11) IconifyWorld.initial calls).coordinator.phase v = some .awaitingAdmission →
        (after (IconifyWorld.step x11) IconifyWorld.initial calls).server.mapping v = .mapped)) ∧
    ∀ before call rest, calls = before ++ call :: rest →
      ∀ w, w = after (IconifyWorld.step x11) IconifyWorld.initial before →
        (∀ v generation, (w.step x11 call).1.coordinator.phase v = some (.iconic generation) →
          w.coordinator.phase v ≠ some (.iconic generation) →
          call = .acknowledge v generation ∧ w.coordinator.phase v = some (.unmapSent generation) ∧
          ∃ earlier since, before = earlier ++ .unmap v generation (.ok ()) :: since ∧
            .acknowledge v generation ∉ since) ∧
        ∀ outcome, call = .compositorLoss outcome →
          LossCommitted x11 w (w.step x11 call).1 ∧ (w.step x11 call).2 = .finished (.ok ()) ∨
          ∃ error, LossRolledBack outcome w (w.step x11 call).1 ∧ (w.step x11 call).2 = .finished (.error error) := by
  have hkept : ∀ {calls : List (IconifyCall E)},
      Along AdmittedCall (IconifyWorld.step x11) initial calls →
      IconifyKept (trace (IconifyWorld.step x11) initial calls)
        (after (IconifyWorld.step x11) initial calls) := fun h =>
    trace_invariant_along (I := IconifyKept) (fun _ _ _ hadmitted hkept => hkept.step hadmitted) iconifyKept_initial h
  refine ⟨fun v hv => ?_, ?_⟩
  · have hheld := (hkept h).held v hv
    refine ⟨fun generation hunmapped => generationOf_eq_some.1 (hheld generation hunmapped), ?_⟩
    intro hphase
    generalize hmapping : (after (IconifyWorld.step x11) initial calls).server.mapping v = m at hheld ⊢
    cases m with
    | mapped => rfl
    | unmapped generation =>
      have hgeneration := generationOf_eq_some.1 (hheld generation rfl)
      rcases hphase with hphase | hphase
      · rw [hphase] at hgeneration
        simp at hgeneration
      · rw [hphase] at hgeneration
        simp at hgeneration
  · rintro before call rest rfl w rfl
    obtain ⟨hbefore, hadmitted, -⟩ := along_append.1 h
    refine ⟨fun v generation hiconic hnot => ?_, fun outcome hcall => ?_⟩
    · have hphase := @phase_step _ x11 _ _ hadmitted v
      rw [hiconic] at hphase
      generalize hp : (after (IconifyWorld.step x11) initial before).coordinator.phase v = p at hphase hnot ⊢
      cases hphase with
      | keep _ => exact absurd rfl hnot
      | confirm hcall hsent =>
        refine ⟨hcall, hsent, ?_⟩
        have hstory := (hkept hbefore).sent v generation (hp.trans hsent)
        rw [map_fst_trace] at hstory
        exact hstory
    · subst hcall
      exact compositorLoss_cases x11 _ outcome

instance (w : IconifyWorld) : ∀ call : IconifyCall E, Decidable (AdmittedCall w call)
  | .unmap .. => inferInstanceAs (Decidable (_ ∧ _ ∧ _))
  | .request _ | .acknowledge .. | .cancel .. | .compositorLoss _ | .retire _ | .manage _ => isTrue trivial

/-- Two windows iconified; a compositor loss fails on the second and puts the first back. -/
def Sample.iconifyCalls : List (IconifyCall String) :=
  [.request 1, .request 2, .unmap 1 7 (.ok ()), .unmap 2 8 (.ok ()), .acknowledge 1 7,
    .compositorLoss fun window => if window = 2 then .queryFailed "no reply" true else .viewable,
    .acknowledge 2 8, .compositorLoss fun _ => .viewable, .unmap 1 9 (.error "refused"), .unmap 1 10 (.ok ()),
    .acknowledge 1 7]

def Sample.iconifyWorld : IconifyWorld := after (IconifyWorld.step id) IconifyWorld.initial Sample.iconifyCalls

theorem iconified_never_forgotten_loss :
    Along AdmittedCall (IconifyWorld.step id) IconifyWorld.initial Sample.iconifyCalls ∧
      Sample.iconifyWorld.coordinator.phase 1 = some (.unmapSent 10) ∧
      Sample.iconifyWorld.coordinator.phase 2 = some .awaitingAdmission ∧
      Sample.iconifyWorld.server.mapping 2 = .mapped ∧
      ∀ v ∉ Sample.iconifyWorld.retired,
        (∀ generation, Sample.iconifyWorld.server.mapping v = .unmapped generation →
          Sample.iconifyWorld.coordinator.phase v = some (.unmapSent generation) ∨
          Sample.iconifyWorld.coordinator.phase v = some (.iconic generation)) ∧
        (Sample.iconifyWorld.coordinator.phase v = none ∨
          Sample.iconifyWorld.coordinator.phase v = some .awaitingAdmission →
          Sample.iconifyWorld.server.mapping v = .mapped) := by
  have h : Along AdmittedCall (IconifyWorld.step id) initial Sample.iconifyCalls := by decide +kernel
  exact ⟨h, by decide +kernel, by decide +kernel, by decide +kernel, (iconified_never_forgotten id h).1⟩

end Jwm
