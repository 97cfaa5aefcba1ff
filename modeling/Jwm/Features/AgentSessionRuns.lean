/-
A pane is revealed only by its owner's own receipt. Every call lets requests wane or does one thing more: it queues, claims,
cancels or settles a request.
-/
import Jwm.Features.AgentSessions

namespace Jwm.Features

open List Option Reveal KeyMap

/-! ## Operation ids -/

variable {n now : Nat} {wm : String} {session : AgentSession}

theorem isDigit_toString {c : Char} (h : c ∈ (toString n).toList) : c.isDigit = true := by
  change c ∈ n.repr.toList at h
  rw [Nat.toList_repr] at h
  exact Nat.isDigit_of_mem_toDigits (b := 10) (by decide) (by decide) h

theorem toString_toList_injective {m : Nat} (h : (toString m).toList = (toString n).toList) : m = n := by
  change m.repr.toList = n.repr.toList at h
  rw [Nat.toList_repr, Nat.toList_repr] at h
  rw [← Nat.ofDigitChars_ten_toDigits (n := m), h, Nat.ofDigitChars_ten_toDigits]

theorem append_colon_inj : ∀ {a b x y : List Char}, a ++ ':' :: x = b ++ ':' :: y → ':' ∉ x → ':' ∉ y → x = y
  | [], [], _, _, h, _, _ => (List.cons.inj h).2
  | [], _ :: _, _, _, h, hx, _ => by
    obtain ⟨-, rfl⟩ := cons.inj h
    exact absurd (mem_append_right _ (mem_cons_self ..)) hx
  | _ :: _, [], _, _, h, _, hy => by
    obtain ⟨-, rfl⟩ := cons.inj h
    exact absurd (mem_append_right _ (mem_cons_self ..)) hy
  | _ :: _, _ :: _, _, _, h, hx, hy => append_colon_inj (cons.inj h).2 hx hy

theorem operationId_inj {wm' : String} {m : Nat} (h : operationId wm m = operationId wm' n) : m = n := by
  have hcolon : ∀ k : Nat, ':' ∉ (toString k).toList := fun k hk => absurd (isDigit_toString hk) (by decide)
  have hlist : ∀ (w : String) (k : Nat),
      (operationId w k).toList = (w.toList ++ ":agent".toList) ++ ':' :: (toString k).toList := by
    intro w k
    unfold operationId
    rw [String.toList_append, String.toList_append, append_assoc, append_assoc]
    rfl
  have hlists := congrArg String.toList h
  rw [hlist, hlist] at hlists
  exact toString_toList_injective (append_colon_inj hlists (hcolon m) (hcolon n))

/-- An id with a number not above `n`. -/
def Numbered (id : String) (n : Nat) : Prop := ∃ wm k, id = operationId wm k ∧ k ≤ n

variable {id : String}

theorem Numbered.mono {m : Nat} (h : Numbered id m) (hmn : m ≤ n) : Numbered id n := by
  obtain ⟨wm, k, hid, hk⟩ := h
  exact ⟨wm, k, hid, Nat.le_trans hk hmn⟩

theorem not_numbered_operationId {m : Nat} (h : n < m) : ¬ Numbered (operationId wm m) n := by
  rintro ⟨wm', k, hid, hk⟩
  have hmk := operationId_inj hid
  omega

/-! ## Waning requests -/

def Waned (m m' : KeyMap String Reveal) : Prop :=
  ∀ id r', m'.get? id = some r' → ∃ r, m.get? id = some r ∧
    (r' = r ∨ r.pending = true ∧ (r' = { r with status := .superseded } ∨ r' = { r with status := .unknown }))

theorem Waned.refl (m : KeyMap String Reveal) : Waned m m := fun _ r h => ⟨r, h, .inl rfl⟩

theorem not_pending_waned {r r' : Reveal}
    (h : r' = { r with status := .superseded } ∨ r' = { r with status := .unknown }) : r'.pending = false := by
  rcases h with rfl | rfl <;> rfl

theorem Waned.trans {m m' m'' : KeyMap String Reveal} (h : Waned m m') (h' : Waned m' m'') : Waned m m'' := by
  intro id r'' hr''
  obtain ⟨r', hr', hcase'⟩ := h' id r'' hr''
  obtain ⟨r, hr, hcase⟩ := h id r' hr'
  refine ⟨r, hr, ?_⟩
  rcases hcase with rfl | ⟨hpending, hcase⟩
  · exact hcase'
  · rcases hcase' with rfl | ⟨hpending', -⟩
    · exact .inr ⟨hpending, hcase⟩
    · rw [not_pending_waned hcase] at hpending'
      cases hpending'

theorem waned_mapValues (m : KeyMap String Reveal) {f : Reveal → Reveal}
    (h : ∀ r, f r = r ∨ r.pending = true ∧ (f r = { r with status := .superseded } ∨ f r = { r with status := .unknown })) :
    Waned m (m.mapValues f) := by
  intro id r' hr'
  rw [get?_mapValues, map_eq_some_iff] at hr'
  obtain ⟨r, hr, rfl⟩ := hr'
  exact ⟨r, hr, h r⟩

theorem waned_retain (m : KeyMap String Reveal) (p : String → Reveal → Bool) : Waned m (m.retain p) := by
  intro id r hr
  rw [get?_retain, filter_eq_some_iff] at hr
  exact ⟨r, hr.1, .inl rfl⟩

namespace AgentSessions

theorem waned_supersede (s : AgentSessions) (id : String) {statuses : List RevealStatus}
    (h : ∀ status ∈ statuses, status = .queued ∨ status = .claimed) : Waned s.requests (s.supersede id statuses) := by
  refine waned_mapValues s.requests fun r => ?_
  split
  · rename_i hr
    rw [Bool.and_eq_true, contains_iff_mem] at hr
    refine .inr ⟨?_, .inl rfl⟩
    unfold pending
    rcases h _ hr.2 with hs | hs <;> rw [hs] <;> rfl
  · exact .inl rfl

theorem waned_settle (s : AgentSessions) (now : Nat) : Waned s.requests (s.settle now).requests := by
  refine waned_mapValues s.requests fun r => ?_
  split
  · rename_i hr
    rw [Bool.and_eq_true] at hr
    exact .inr ⟨hr.1, .inr rfl⟩
  · exact .inl rfl

theorem settle_in_time {s : AgentSessions} {id : String} {r : Reveal}
    (h : (s.settle now).requests.get? id = some r) (hr : r.pending = true) : now ≤ r.started + requestTimeout := by
  unfold settle at h
  rw [get?_mapValues, map_eq_some_iff] at h
  obtain ⟨r₀, -, rfl⟩ := h
  by_cases hlate : (r₀.pending && now - r₀.started > requestTimeout) = true
  · rw [if_pos hlate] at hr
    cases hr
  · rw [if_neg hlate] at hr ⊢
    rw [hr, Bool.true_and, decide_eq_true_eq] at hlate
    omega

end AgentSessions

open AgentSessions

/-! ## What a call does to the requests -/

/-- The statuses a status may be left for. -/
inductive RevealStatus.Moves : RevealStatus → RevealStatus → Prop
  | queued {status} (h : status ∈ [claimed, superseded, cancelled, unknown]) : Moves queued status
  | claimed {status} (h : status ∈ [revealed, failed, superseded, unknown]) : Moves claimed status

def AgentAnswer.granted : AgentAnswer → Option String
  | .claimed (.ok (r, false)) => some r.operationId
  | _ => none

/-- A receipt that names the request by all of its values, in time, while the association registered under its
session has the same values and a live lease. -/
def OwnReceipt (s : AgentSessions) (c : AgentCall) (r : Reveal) (status : RevealStatus) : Prop :=
  ∃ args now e, c = .receipt args now ∧ (args.index "operation_id").asStr = some r.operationId ∧
    names args r = true ∧ (args.index "revision").asU64 = some r.revision ∧
    receiptStatus args = some status ∧ now ≤ r.started + requestTimeout ∧
    s.entries.get? r.sessionId = some e ∧ e.session.revision = r.revision ∧
    sameAssociation e.session r = true ∧ now ≤ e.seen + lease

/-- All a call can do to the requests. -/
inductive Effect (s : AgentSessions) (c : AgentCall) : AgentAnswer → AgentSessions → Prop
  | waned {a s'} (h : Waned s.requests s'.requests) (hsequence : s'.sequence = s.sequence) (ha : a.granted = none) :
      Effect s c a s'
  | queued {id revision wm now session m s'} (hc : c = .queue id revision wm now)
      (hactive : s.active id revision now = .ok session) (h : Waned s.requests m)
      (hone : ∀ id r, m.get? id = some r → r.pending = true → r.association ≠ session.association)
      (hsequence : s'.sequence = s.sequence + 1)
      (hs' : s'.requests = m.insert (operationId wm (s.sequence + 1)) (session.reveal wm (s.sequence + 1) now)) :
      Effect s c (.queued (.ok (session.reveal wm (s.sequence + 1) now))) s'
  | moved {a s' m r} {status : RevealStatus} (h : Waned s.requests m) (hr : m.get? r.operationId = some r)
      (hmove : RevealStatus.Moves r.status status) (hsequence : s'.sequence = s.sequence)
      (hs' : s'.requests = m.insert r.operationId { r with status := status })
      (ha : a.granted = if status = .claimed then some r.operationId else none)
      (hreceipt : status = .revealed ∨ status = .failed → OwnReceipt s c r status) :
      Effect s c a s'

def Filed (m : KeyMap String Reveal) : Prop := ∀ id r, m.get? id = some r → r.operationId = id

theorem Waned.filed {m m' : KeyMap String Reveal} (h : Waned m m') (hm : Filed m) : Filed m' := by
  intro id r' hr'
  obtain ⟨r, hr, hcase⟩ := h id r' hr'
  have hid := hm id r hr
  rcases hcase with rfl | ⟨-, rfl | rfl⟩ <;> exact hid

namespace AgentSessions

variable {s : AgentSessions}

theorem admit_frame (s : AgentSessions) (session : AgentSession) (now : Nat) :
    (s.admitSession session now).1.requests = s.requests ∧ (s.admitSession session now).1.sequence = s.sequence := by
  unfold admitSession
  dsimp only
  repeat' split
  all_goals exact ⟨rfl, rfl⟩

theorem effect_register (s : AgentSessions) (session : AgentSession) (now : Nat) :
    Effect s (.register session now) (s.step (.register session now)).2 (s.step (.register session now)).1 := by
  obtain ⟨hrequests, hsequence⟩ := admit_frame s session now
  show Effect s _ (.registered (s.register session now).2) (s.register session now).1
  unfold register
  split
  · exact .waned (Waned.refl _) rfl rfl
  · generalize s.admitSession session now = admitted at hrequests hsequence ⊢
    obtain ⟨s', result⟩ := admitted
    cases result with
    | error e => exact .waned (by rw [hrequests]; exact Waned.refl _) hsequence rfl
    | ok u =>
      refine .waned ?_ hsequence rfl
      rw [← hrequests]
      dsimp only
      split
      · exact waned_supersede s' session.sessionId fun status h => .inl (mem_singleton.1 h)
      · exact Waned.refl _

theorem effect_retire (s : AgentSessions) (id : String) (windows : Value) :
    Effect s (.retireDestroyedAssociation id windows) (s.step (.retireDestroyedAssociation id windows)).2
      (s.step (.retireDestroyedAssociation id windows)).1 := by
  show Effect s _ (.retired (s.retireDestroyedAssociation id windows).2) (s.retireDestroyedAssociation id windows).1
  unfold retireDestroyedAssociation
  split
  · exact .waned (Waned.refl _) rfl rfl
  · dsimp only
    split
    · refine .waned (waned_supersede s id fun status h => ?_) rfl rfl
      rwa [mem_cons, mem_singleton] at h
    · exact .waned (Waned.refl _) rfl rfl

theorem effect_queue (s : AgentSessions) (id : String) (revision : Nat) (wm : String) (now : Nat) :
    Effect s (.queue id revision wm now) (s.step (.queue id revision wm now)).2
      (s.step (.queue id revision wm now)).1 := by
  have hsettle := waned_settle s now
  cases hactive : s.active id revision now with
  | error e =>
    simp only [step, hactive]
    exact .waned (Waned.refl _) rfl rfl
  | ok session =>
    simp only [step, hactive, queue]
    cases hfind : (s.settle now).requests.entries.find? fun e =>
        e.2.association == session.association && e.2.pending with
    | some e => exact .waned hsettle rfl rfl
    | none =>
      have hwaned := hsettle.trans (waned_retain (s.settle now).requests fun _ r => now - r.started < 60 * 10 ^ 9)
      dsimp only
      split
      · exact .waned hwaned rfl rfl
      · split
        · exact .waned hwaned rfl rfl
        · refine .queued rfl hactive hwaned (fun id' r hr hpending hassociation => ?_) rfl rfl
          rw [get?_retain, filter_eq_some_iff] at hr
          have hnot := find?_eq_none.1 hfind _ (get?_eq_some.1 hr.1)
          rw [Bool.and_eq_true, beq_iff_eq] at hnot
          exact hnot ⟨hassociation, hpending⟩

theorem effect_claim (hfiled : Filed s.requests) (args : Value) (now : Nat) :
    Effect s (.claim args now) (s.step (.claim args now)).2 (s.step (.claim args now)).1 := by
  have hsettle := waned_settle s now
  have hquiet : ∀ {a}, a.granted = none → Effect s (.claim args now) a (s.settle now) := fun h => .waned hsettle rfl h
  show Effect s _ (.claimed (s.claim args now).2) (s.claim args now).1
  unfold claim
  dsimp only
  split
  · exact hquiet rfl
  · rename_i id _
    split
    · exact hquiet rfl
    · rename_i r hr
      split
      · exact hquiet rfl
      · split
        · exact hquiet rfl
        · split
          · exact hquiet rfl
          · split
            · exact hquiet rfl
            · rename_i hnot
              split
              · exact hquiet rfl
              · rename_i hqueued
                have hid := hsettle.filed hfiled id r hr
                subst hid
                refine .moved hsettle hr ?_ rfl rfl rfl nofun
                rw [Decidable.not_not.1 hqueued]
                exact .queued (by decide)

theorem active_ok {id : String} {revision : Nat} (h : s.active id revision now = .ok session) :
    ∃ e, s.entries.get? id = some e ∧ e.session = session ∧ session.revision = revision ∧ now ≤ e.seen + lease := by
  unfold active at h
  split at h
  · cases h
  · rename_i e he
    split at h
    · cases h
    · rename_i hrevision
      split at h
      · cases h
      · rename_i hlive
        cases h
        refine ⟨e, he, rfl, Decidable.not_not.1 hrevision, ?_⟩
        unfold Entry.expired at hlive
        simp only [Bool.or_eq_true, decide_eq_true_eq, not_or] at hlive
        omega

theorem receiptStatus_mem {args : Value} {status : RevealStatus} (h : receiptStatus args = some status) :
    status = .revealed ∨ status = .failed := by
  unfold receiptStatus at h
  split at h
  · exact .inl (some.inj h).symm
  · exact .inr (some.inj h).symm
  · cases h

theorem effect_receipt (hfiled : Filed s.requests) (args : Value) (now : Nat) :
    Effect s (.receipt args now) (s.step (.receipt args now)).2 (s.step (.receipt args now)).1 := by
  have hsettle := waned_settle s now
  have hquiet : ∀ {result}, Effect s (.receipt args now) (.receipt result) (s.settle now) := .waned hsettle rfl rfl
  show Effect s _ (.receipt (s.receipt args now).2) (s.receipt args now).1
  unfold receipt
  dsimp only
  split
  · exact hquiet
  · rename_i id hid
    split
    · exact hquiet
    · rename_i r hr
      split
      · exact hquiet
      · rename_i hnames
        split
        · exact hquiet
        · rename_i current hactive
          split
          · exact hquiet
          · rename_i hsame
            split
            · exact hquiet
            · rename_i hrevision
              split
              · exact hquiet
              · rename_i status hstatus
                split
                · exact hquiet
                · split
                  · exact hquiet
                  · rename_i hclaimed
                    have hoperation := hsettle.filed hfiled id r hr
                    subst hoperation
                    have hclaimed := Decidable.not_not.1 hclaimed
                    have houtcome := receiptStatus_mem hstatus
                    obtain ⟨e, he, rfl, hcurrent, hlease⟩ := active_ok hactive
                    have hpending : r.pending = true := by
                      unfold pending
                      rw [hclaimed]
                      rfl
                    refine .moved hsettle hr ?_ rfl rfl ?_ fun _ =>
                      ⟨args, now, e, rfl, hid, by simpa using hnames, Decidable.not_not.1 hrevision, hstatus,
                        settle_in_time hr hpending, he, hcurrent, by simpa using hsame, hlease⟩
                    · rw [hclaimed]
                      refine .claimed ?_
                      rcases houtcome with rfl | rfl <;> decide
                    · rcases houtcome with rfl | rfl <;> rfl

theorem effect_cancel (hfiled : Filed s.requests) (operation : String) :
    Effect s (.cancelActivation operation) (s.step (.cancelActivation operation)).2
      (s.step (.cancelActivation operation)).1 := by
  show Effect s _ .done (s.cancelActivation operation)
  unfold cancelActivation
  split
  · rename_i r hr
    split
    · rename_i hqueued
      have hid := hfiled operation r hr
      subst hid
      refine .moved (Waned.refl _) hr ?_ rfl rfl rfl nofun
      rw [hqueued]
      exact .queued (by decide)
    · exact .waned (Waned.refl _) rfl rfl
  · exact .waned (Waned.refl _) rfl rfl

theorem effect_step (hfiled : Filed s.requests) (c : AgentCall) : Effect s c (s.step c).2 (s.step c).1 := by
  cases c with
  | register session now => exact effect_register s session now
  | retireDestroyedAssociation id windows => exact effect_retire s id windows
  | queue id revision wm now => exact effect_queue s id revision wm now
  | claim args now => exact effect_claim hfiled args now
  | receipt args now => exact effect_receipt hfiled args now
  | activationStatus operation now => exact .waned (waned_settle s now) rfl rfl
  | cancelActivation operation => exact effect_cancel hfiled operation

end AgentSessions

/-! ## What a run keeps -/

def Tracked (r r' : Reveal) : Prop :=
  r' = { r with status := r'.status } ∧ (r'.status = r.status ∨ RevealStatus.Moves r.status r'.status)

def Tracks (m m' : KeyMap String Reveal) : Prop :=
  ∀ id r', m'.get? id = some r' → ∃ r, m.get? id = some r ∧ Tracked r r'

theorem RevealStatus.Moves.pending {r : Reveal} {status : RevealStatus} (h : RevealStatus.Moves r.status status) :
    r.pending = true := by
  unfold Reveal.pending
  generalize r.status = from_ at h
  cases h <;> rfl

theorem RevealStatus.Moves.ne_queued {a b : RevealStatus} (h : RevealStatus.Moves a b) : b ≠ .queued := by
  rintro rfl
  rcases h with ⟨h⟩ | ⟨h⟩ <;> exact absurd h (by decide)

theorem RevealStatus.Moves.to_claimed {a : RevealStatus} (h : RevealStatus.Moves a .claimed) : a = .queued := by
  rcases h with ⟨h⟩ | ⟨h⟩
  · rfl
  · exact absurd h (by decide)

theorem pending_moves {r : Reveal} (h : r.pending = true) :
    RevealStatus.Moves r.status .superseded ∧ RevealStatus.Moves r.status .unknown := by
  unfold pending at h
  rw [Bool.or_eq_true, beq_iff_eq, beq_iff_eq] at h
  rcases h with h | h <;> rw [h]
  · exact ⟨.queued (by decide), .queued (by decide)⟩
  · exact ⟨.claimed (by decide), .claimed (by decide)⟩

theorem Waned.tracks {m m' : KeyMap String Reveal} (h : Waned m m') : Tracks m m' := by
  intro id r' hr'
  obtain ⟨r, hr, hcase⟩ := h id r' hr'
  refine ⟨r, hr, ?_⟩
  rcases hcase with rfl | ⟨hpending, rfl | rfl⟩
  · exact ⟨rfl, .inl rfl⟩
  · exact ⟨rfl, .inr (pending_moves hpending).1⟩
  · exact ⟨rfl, .inr (pending_moves hpending).2⟩

/-- A move after waning is the only move of its request: what waned is no longer pending. -/
theorem Waned.tracks_move {m m' : KeyMap String Reveal} (h : Waned m m') {r : Reveal} {status : RevealStatus}
    (hr : m'.get? r.operationId = some r) (hmove : RevealStatus.Moves r.status status) :
    Tracks m (m'.insert r.operationId { r with status := status }) := by
  intro id r' hr'
  rw [get?_insert] at hr'
  split at hr'
  · rename_i hid
    subst hid
    cases hr'
    obtain ⟨r₀, hr₀, hcase⟩ := h _ r hr
    refine ⟨r₀, hr₀, ?_⟩
    rcases hcase with rfl | ⟨-, hgone⟩
    · exact ⟨rfl, .inr hmove⟩
    · have hpending := hmove.pending
      rw [not_pending_waned hgone] at hpending
      cases hpending
  · exact h.tracks id r' hr'

namespace Tracked

variable {r r' : Reveal}

theorem operationId (h : Tracked r r') : r'.operationId = r.operationId := by rw [h.1]

theorem association (h : Tracked r r') : r'.association = r.association := by
  rw [h.1]
  rfl

theorem pending (h : Tracked r r') (hr' : r'.pending = true) : r.pending = true := by
  rcases h.2 with hs | hmove
  · unfold Reveal.pending at hr' ⊢
    rwa [← hs]
  · exact hmove.pending

theorem queued (h : Tracked r r') (hr' : r'.status = .queued) : r.status = .queued := by
  rcases h.2 with hs | hmove
  · rw [← hs, hr']
  · exact absurd hr' hmove.ne_queued

end Tracked

def OnePending (m : KeyMap String Reveal) : Prop :=
  ∀ id id' r r', m.get? id = some r → m.get? id' = some r' → r.pending = true → r'.pending = true →
    r.association = r'.association → id = id'

namespace Tracks

variable {m m' : KeyMap String Reveal}

theorem filed (h : Tracks m m') (hm : Filed m) : Filed m' := by
  intro id r' hr'
  obtain ⟨r, hr, htracked⟩ := h id r' hr'
  rw [htracked.operationId, hm id r hr]

theorem one (h : Tracks m m') (hm : OnePending m) : OnePending m' := by
  intro id id' r₁' r₂' h₁' h₂' hp₁ hp₂ hsame
  obtain ⟨r₁, h₁, ht₁⟩ := h id r₁' h₁'
  obtain ⟨r₂, h₂, ht₂⟩ := h id' r₂' h₂'
  refine hm id id' r₁ r₂ h₁ h₂ (ht₁.pending hp₁) (ht₂.pending hp₂) ?_
  rw [← ht₁.association, ← ht₂.association, hsame]

theorem numbered (h : Tracks m m') (hm : ∀ id r, m.get? id = some r → Numbered id n) :
    ∀ id r, m'.get? id = some r → Numbered id n := by
  intro id r' hr'
  obtain ⟨r, hr, -⟩ := h id r' hr'
  exact hm id r hr

theorem not_queued (h : Tracks m m') {id : String} (hm : ∀ r, m.get? id = some r → r.status ≠ .queued) :
    ∀ r, m'.get? id = some r → r.status ≠ .queued := by
  intro r' hr' hqueued
  obtain ⟨r, hr, htracked⟩ := h id r' hr'
  exact hm r hr (htracked.queued hqueued)

end Tracks

def grants (history : List (AgentCall × AgentAnswer)) : List String := history.filterMap fun e => e.2.granted

/-- Between calls, whatever was asked before. -/
structure Sound (history : List (AgentCall × AgentAnswer)) (s : AgentSessions) : Prop where
  filed : Filed s.requests
  numbered : ∀ id r, s.requests.get? id = some r → Numbered id s.sequence
  one : OnePending s.requests
  granted : ∀ id ∈ grants history, Numbered id s.sequence ∧ ∀ r, s.requests.get? id = some r → r.status ≠ .queued
  once : (grants history).Nodup

section

variable {history : List (AgentCall × AgentAnswer)}

theorem grants_append_none {e : AgentCall × AgentAnswer}
    (h : e.2.granted = none) : grants (history ++ [e]) = grants history := by
  unfold grants
  rw [filterMap_append, filterMap_cons, h, filterMap_nil, append_nil]

theorem grants_append_some {e : AgentCall × AgentAnswer}
    (h : e.2.granted = some id) : grants (history ++ [e]) = grants history ++ [id] := by
  unfold grants
  rw [filterMap_append, filterMap_cons, h, filterMap_nil]

namespace Sound

variable {history : List (AgentCall × AgentAnswer)} {s s' : AgentSessions}

theorem start : Sound [] .default :=
  ⟨nofun, nofun, nofun, nofun, nodup_nil⟩

variable {e : AgentCall × AgentAnswer}

theorem tracks (h : Sound history s) (htracks : Tracks s.requests s'.requests) (hsequence : s'.sequence = s.sequence)
    (he : e.2.granted = none) : Sound (history ++ [e]) s' where
  filed := htracks.filed h.filed
  numbered := by
    rw [hsequence]
    exact htracks.numbered h.numbered
  one := htracks.one h.one
  granted id hid := by
    rw [grants_append_none he] at hid
    rw [hsequence]
    exact ⟨(h.granted id hid).1, htracks.not_queued (h.granted id hid).2⟩
  once := by
    rw [grants_append_none he]
    exact h.once

theorem insert (h : Sound history s) {m : KeyMap String Reveal} (hwaned : Waned s.requests m)
    (hone : ∀ id r, m.get? id = some r → r.pending = true → r.association ≠ session.association)
    (hsequence : s'.sequence = s.sequence + 1)
    (hs' : s'.requests = m.insert (operationId wm (s.sequence + 1)) (session.reveal wm (s.sequence + 1) now))
    (he : e.2.granted = none) : Sound (history ++ [e]) s' := by
  have htracks := hwaned.tracks
  have hold : ∀ id r, m.get? id = some r → Numbered id s.sequence := htracks.numbered h.numbered
  refine ⟨?_, ?_, ?_, ?_, ?_⟩
  · intro id r hr
    rw [hs', get?_insert] at hr
    split at hr
    · rename_i hid
      cases hr
      exact hid.symm
    · exact htracks.filed h.filed id r hr
  · intro id r hr
    rw [hs', get?_insert] at hr
    rw [hsequence]
    split at hr
    · rename_i hid
      exact ⟨wm, s.sequence + 1, hid, Nat.le_refl _⟩
    · exact (hold id r hr).mono (Nat.le_succ _)
  · intro id id' r r' hr hr' hp hp' hsame
    rw [hs', get?_insert] at hr hr'
    split at hr <;> split at hr'
    · rename_i hid hid'
      rw [hid, hid']
    · cases hr
      exact absurd hsame.symm (hone id' r' hr' hp')
    · cases hr'
      exact absurd hsame (hone id r hr hp)
    · exact htracks.one h.one id id' r r' hr hr' hp hp' hsame
  · intro id hid
    rw [grants_append_none he] at hid
    obtain ⟨hnumbered, hnot⟩ := h.granted id hid
    rw [hsequence]
    refine ⟨hnumbered.mono (Nat.le_succ _), fun r hr => ?_⟩
    rw [hs', get?_insert] at hr
    split at hr
    · rename_i heq
      subst heq
      exact absurd hnumbered (not_numbered_operationId (Nat.lt_succ_self _))
    · exact htracks.not_queued hnot r hr
  · rw [grants_append_none he]
    exact h.once

theorem grant (h : Sound history s) {m : KeyMap String Reveal} (hwaned : Waned s.requests m) {r : Reveal}
    (hr : m.get? r.operationId = some r) (hqueued : r.status = .queued) (hsequence : s'.sequence = s.sequence)
    (hs' : s'.requests = m.insert r.operationId { r with status := .claimed })
    (he : e.2.granted = some r.operationId) : Sound (history ++ [e]) s' := by
  have hmove : RevealStatus.Moves r.status .claimed := by
    rw [hqueued]
    exact .queued (by decide)
  have htracks := hwaned.tracks_move hr hmove
  rw [← hs'] at htracks
  have hnew : r.operationId ∉ grants history := fun hid => hwaned.tracks.not_queued (h.granted _ hid).2 r hr hqueued
  refine ⟨htracks.filed h.filed, ?_, htracks.one h.one, ?_, ?_⟩
  · rw [hsequence]
    exact htracks.numbered h.numbered
  · intro id hid
    rw [grants_append_some he, mem_append, mem_singleton] at hid
    rw [hsequence]
    rcases hid with hid | rfl
    · exact ⟨(h.granted id hid).1, htracks.not_queued (h.granted id hid).2⟩
    · refine ⟨hwaned.tracks.numbered h.numbered _ r hr, fun r' hr' => ?_⟩
      rw [hs', get?_insert, if_pos rfl] at hr'
      cases hr'
      nofun
  · rw [grants_append_some he]
    exact nodup_append.2 ⟨h.once, nodup_singleton _, fun a ha b hb hab =>
      hnew (mem_singleton.1 hb ▸ hab ▸ ha)⟩

theorem step (h : Sound history s) (c : AgentCall) : Sound (history ++ [(c, (s.step c).2)]) (s.step c).1 := by
  have heffect := effect_step h.filed c
  generalize (s.step c).1 = s' at heffect
  generalize (s.step c).2 = a at heffect
  cases heffect with
  | waned hwaned hsequence ha => exact h.tracks hwaned.tracks hsequence ha
  | queued hc hactive hwaned hone hsequence hs' => exact h.insert hwaned hone hsequence hs' rfl
  | @moved _ _ m r status hwaned hr hmove hsequence hs' ha hreceipt =>
    by_cases hclaimed : status = .claimed
    · subst hclaimed
      exact h.grant hwaned hr hmove.to_claimed hsequence hs' ha
    · rw [if_neg hclaimed] at ha
      have htracks := hwaned.tracks_move hr hmove
      rw [← hs'] at htracks
      exact h.tracks htracks hsequence ha

end Sound

theorem Sound.reached (calls : List AgentCall) :
    Sound (trace AgentSessions.step .default calls) (after AgentSessions.step .default calls) :=
  trace_invariant (fun _ _ c h => h.step c) Sound.start calls

/-! ## New requests -/

/-- The request a call queues anew, told by the number it draws. -/
def AgentSessions.newRequest (s : AgentSessions) (c : AgentCall) : Option Reveal :=
  match (s.step c).2 with
  | .queued (.ok r) => if s.sequence < (s.step c).1.sequence then some r else none
  | _ => none

def newRequests : AgentSessions → List AgentCall → List Reveal
  | _, [] => []
  | s, c :: calls => (s.newRequest c).toList ++ newRequests (s.step c).1 calls

variable {c : AgentCall}

theorem newRequest_none {s : AgentSessions} (h : (s.step c).1.sequence = s.sequence) : s.newRequest c = none := by
  unfold newRequest
  split
  · rw [h, if_neg (Nat.lt_irrefl _)]
  · rfl

/-- A call queues a request under the next number, or none and draws no number. -/
theorem newRequest_spec {s : AgentSessions} (hfiled : Filed s.requests) (c : AgentCall) :
    (s.newRequest c = none ∧ (s.step c).1.sequence = s.sequence ∧ Tracks s.requests (s.step c).1.requests) ∨
      ∃ (session : AgentSession) (wm : String) (now : Nat) (m : KeyMap String Reveal), c.time = some now ∧ (s.step c).1.sequence = s.sequence + 1 ∧
        s.newRequest c = some (session.reveal wm (s.sequence + 1) now) ∧ Waned s.requests m ∧
        (s.step c).1.requests = m.insert (operationId wm (s.sequence + 1)) (session.reveal wm (s.sequence + 1) now) := by
  have hnone := newRequest_none (s := s) (c := c)
  have hnew : s.newRequest c = match (s.step c).2 with
      | .queued (.ok r) => if s.sequence < (s.step c).1.sequence then some r else none
      | _ => none := rfl
  have heffect := effect_step hfiled c
  generalize s.newRequest c = new at hnone hnew ⊢
  generalize (s.step c).1 = s' at heffect hnone hnew ⊢
  generalize (s.step c).2 = a at heffect hnew
  cases heffect with
  | waned hwaned hsequence ha => exact .inl ⟨hnone hsequence, hsequence, hwaned.tracks⟩
  | @queued id revision wm now session m _ hc hactive hwaned hone hsequence hs' =>
    refine .inr ⟨session, wm, now, m, by rw [hc]; rfl, hsequence, ?_, hwaned, hs'⟩
    rw [hnew]
    show (if s.sequence < s'.sequence then _ else none) = _
    rw [hsequence, if_pos (Nat.lt_succ_self _)]
  | moved hwaned hr hmove hsequence hs' ha hreceipt =>
    have htracks := hwaned.tracks_move hr hmove
    rw [← hs'] at htracks
    exact .inl ⟨hnone hsequence, hsequence, htracks⟩

theorem newRequests_nodup : ∀ (calls : List AgentCall) {history : List (AgentCall × AgentAnswer)} {s : AgentSessions},
    Sound history s → ((newRequests s calls).map Reveal.operationId).Nodup ∧
      ∀ r ∈ newRequests s calls, ∃ wm n, r.operationId = operationId wm n ∧ s.sequence < n
  | [], _, _, _ => ⟨nodup_nil, nofun⟩
  | c :: calls, _, s, h => by
    obtain ⟨hnodup, hlater⟩ := newRequests_nodup calls (h.step c)
    unfold newRequests
    rcases newRequest_spec h.filed c with ⟨hnone, hsequence, -⟩ | ⟨session, wm, now, m, -, hsequence, hnew, -, -⟩
    · rw [hnone, toList_none, nil_append]
      rw [hsequence] at hlater
      exact ⟨hnodup, hlater⟩
    · rw [hnew, toList_some, singleton_append]
      rw [hsequence] at hlater
      refine ⟨nodup_cons.2 ⟨fun hmem => ?_, hnodup⟩, fun r hr => ?_⟩
      · obtain ⟨r, hr, hid⟩ := mem_map.1 hmem
        obtain ⟨wm', n, hn, hlt⟩ := hlater r hr
        have hsame := operationId_inj ((hn.symm.trans hid).trans (rfl : _ = operationId wm (s.sequence + 1)))
        omega
      · rcases mem_cons.1 hr with rfl | hr
        · exact ⟨wm, s.sequence + 1, rfl, Nat.lt_succ_self _⟩
        · obtain ⟨wm', n, hn, hlt⟩ := hlater r hr
          exact ⟨wm', n, hn, by omega⟩

/-! ## Owners -/

/-- The registration of a session id that stands after a call. -/
def registration (id : String) (last : Option (AgentSession × Nat)) :
    AgentCall × AgentAnswer → Option (AgentSession × Nat)
  | (.register session now, .registered (.ok ())) => if session.sessionId = id then some (session, now) else last
  | (.retireDestroyedAssociation retired _, .retired true) => if retired = id then none else last
  | _ => last

/-- The last registration of a session id, unless its window has been destroyed since. -/
def lastRegistration (history : List (AgentCall × AgentAnswer)) (id : String) : Option (AgentSession × Nat) :=
  history.foldl (registration id) none

/-- Only registrations and destroyed windows change the registry. -/
def AgentCall.changesRegistry : AgentCall → Bool
  | .register .. | .retireDestroyedAssociation .. => true
  | _ => false

def times (calls : List AgentCall) : List Nat := calls.filterMap AgentCall.time

/-- A registration stands in the registry until its lease has run out. -/
def Standing (history : List (AgentCall × AgentAnswer)) (s : AgentSessions) : Prop :=
  ∀ id session t, lastRegistration history id = some (session, t) →
    s.entries.get? id = some { session := session, seen := t } ∨
      s.entries.get? id = none ∧ ∃ now ∈ times (history.map Prod.fst), t + lease < now

section

variable (history : List (AgentCall × AgentAnswer)) (e : AgentCall × AgentAnswer)

theorem lastRegistration_append (id : String) :
    lastRegistration (history ++ [e]) id = registration id (lastRegistration history id) e := by
  unfold lastRegistration
  rw [foldl_append]
  rfl

theorem times_append : times ((history ++ [e]).map Prod.fst) = times (history.map Prod.fst) ++ e.1.time.toList := by
  unfold times
  rw [map_append, filterMap_append]
  cases h : e.1.time with
  | none | some now => simp [h]

end

theorem mem_times_append (e : AgentCall × AgentAnswer)
    (h : now ∈ times (history.map Prod.fst)) : now ∈ times ((history ++ [e]).map Prod.fst) := by
  rw [times_append]
  exact mem_append_left _ h

end

namespace AgentSessions

theorem admit_entries (s : AgentSessions) (session : AgentSession) (now : Nat) (id : String) :
    (s.admitSession session now).1.entries.get? id = s.entries.get? id ∨
      (s.admitSession session now).1.entries.get? id = none ∧ ∀ e, s.entries.get? id = some e → e.seen + lease < now := by
  have hretain : ∀ keep : String → Entry → Bool, (∀ id e, keep id e = decide (now - e.seen ≤ lease)) →
      (s.entries.retain keep).get? id = s.entries.get? id ∨
        (s.entries.retain keep).get? id = none ∧ ∀ e, s.entries.get? id = some e → e.seen + lease < now := by
    intro keep hkeep
    rw [get?_retain]
    cases hid : s.entries.get? id with
    | none => exact .inl rfl
    | some e =>
      rw [filter_some, hkeep]
      by_cases hlive : now - e.seen ≤ lease
      · rw [decide_eq_true hlive]
        exact .inl rfl
      · rw [decide_eq_false hlive]
        refine .inr ⟨rfl, fun e' he' => ?_⟩
        cases he'
        omega
  unfold admitSession
  split
  · split
    · split <;> exact .inl rfl
    · split <;> exact .inl rfl
  · split
    · dsimp only
      split
      · exact hretain _ fun _ _ => rfl
      · exact hretain _ fun _ _ => rfl
    · exact .inl rfl

theorem admit_takeover {s : AgentSessions} {s' : AgentSessions}
    (h : s.admitSession session now = (s', .ok ())) {old : Entry} (hold : s.entries.get? session.sessionId = some old)
    (hhost : old.session.hostId ≠ session.hostId ∨ old.session.hostIncarnation ≠ session.hostIncarnation) :
    old.seen + lease < now := by
  unfold admitSession at h
  rw [hold] at h
  dsimp only at h
  rw [if_pos hhost] at h
  split at h
  · cases h
  · omega

theorem retire_entries (s : AgentSessions) (retired : String) (windows : Value) (id : String) :
    ((s.retireDestroyedAssociation retired windows).2 = true ∧ retired = id) ∨
      (s.retireDestroyedAssociation retired windows).1.entries.get? id = s.entries.get? id := by
  unfold retireDestroyedAssociation
  split
  · exact .inr rfl
  · dsimp only
    split
    · by_cases hid : retired = id
      · exact .inl ⟨rfl, hid⟩
      · refine .inr ?_
        rw [get?_remove, if_neg (Ne.symm hid)]
    · exact .inr rfl

theorem step_entries (s : AgentSessions) {c : AgentCall} (hc : c.changesRegistry = false) :
    (s.step c).1.entries = s.entries := by
  cases c with
  | register session now | retireDestroyedAssociation id windows => cases hc
  | queue id revision wm now =>
    simp only [step]
    split
    · rfl
    · simp only [queue]
      repeat' split
      all_goals rfl
  | claim args now =>
    show (s.claim args now).1.entries = s.entries
    unfold claim
    dsimp only
    repeat' split
    all_goals rfl
  | receipt args now =>
    show (s.receipt args now).1.entries = s.entries
    unfold receipt
    dsimp only
    repeat' split
    all_goals rfl
  | activationStatus operation now => rfl
  | cancelActivation operation =>
    show (s.cancelActivation operation).entries = s.entries
    unfold cancelActivation
    repeat' split
    all_goals rfl

end AgentSessions

namespace Standing

variable {history : List (AgentCall × AgentAnswer)} {s : AgentSessions}

theorem register (h : Standing history s) (session : AgentSession) (now : Nat) :
    Standing (history ++ [(.register session now, (s.step (.register session now)).2)])
      (s.step (.register session now)).1 := by
  intro id last t hlast
  rw [lastRegistration_append] at hlast
  change registration id _ (.register session now, .registered (s.register session now).2) = _ at hlast
  show (s.register session now).1.entries.get? id = _ ∨ (s.register session now).1.entries.get? id = none ∧ _
  -- what the registry keeps of an older registration once room has been made
  have hkept : ∀ {s' : AgentSessions}, s'.entries.get? id = s.entries.get? id ∨
        s'.entries.get? id = none ∧ (∀ e, s.entries.get? id = some e → e.seen + lease < now) →
      lastRegistration history id = some (last, t) → ∀ a, s'.entries.get? id = some { session := last, seen := t } ∨
        s'.entries.get? id = none ∧
          ∃ now' ∈ times ((history ++ [(AgentCall.register session now, a)]).map Prod.fst), t + lease < now' := by
    intro s' hs' hlast a
    rcases h id last t hlast with hentry | ⟨hgone, now', hnow', hlt⟩
    · rcases hs' with hsame | ⟨hnone, hexpired⟩
      · exact .inl (hsame.trans hentry)
      · refine .inr ⟨hnone, now, ?_, hexpired _ hentry⟩
        rw [times_append]
        exact mem_append_right _ (mem_singleton_self now)
    · refine .inr ⟨?_, now', mem_times_append _ hnow', hlt⟩
      rcases hs' with hsame | ⟨hnone, -⟩
      · exact hsame.trans hgone
      · exact hnone
  have hadm := admit_entries s session now id
  unfold AgentSessions.register at hlast ⊢
  split at hlast
  · exact hkept (.inl rfl) hlast _
  · generalize s.admitSession session now = admitted at hadm hlast ⊢
    obtain ⟨s', result⟩ := admitted
    cases result with
    | error e => exact hkept hadm hlast _
    | ok u =>
      dsimp only [registration] at hlast ⊢
      rw [get?_insert]
      by_cases hid : session.sessionId = id
      · rw [if_pos hid] at hlast
        cases hlast
        exact .inl (if_pos hid.symm)
      · rw [if_neg hid] at hlast
        rw [if_neg (Ne.symm hid)]
        exact hkept hadm hlast _

theorem retire (h : Standing history s) (retired : String) (windows : Value) :
    Standing (history ++ [(.retireDestroyedAssociation retired windows,
        (s.step (.retireDestroyedAssociation retired windows)).2)])
      (s.step (.retireDestroyedAssociation retired windows)).1 := by
  intro id last t hlast
  rw [lastRegistration_append] at hlast
  change registration id _ (.retireDestroyedAssociation retired windows,
    .retired (s.retireDestroyedAssociation retired windows).2) = _ at hlast
  show (s.retireDestroyedAssociation retired windows).1.entries.get? id = _ ∨
    (s.retireDestroyedAssociation retired windows).1.entries.get? id = none ∧ _
  have hentries := retire_entries s retired windows id
  rcases hentries with ⟨hgone, hid⟩ | hsame
  · rw [hgone] at hlast
    dsimp only [registration] at hlast
    rw [if_pos hid] at hlast
    cases hlast
  · have hbefore : lastRegistration history id = some (last, t) := by
      cases hresult : (s.retireDestroyedAssociation retired windows).2 with
      | false => rwa [hresult] at hlast
      | true =>
        rw [hresult] at hlast
        dsimp only [registration] at hlast
        split at hlast
        · cases hlast
        · exact hlast
    rw [hsame]
    rcases h id last t hbefore with hentry | ⟨hgone, now, hnow, hlt⟩
    · exact .inl hentry
    · exact .inr ⟨hgone, now, mem_times_append _ hnow, hlt⟩

theorem other (h : Standing history s) {c : AgentCall} (hc : c.changesRegistry = false) (a : AgentAnswer) :
    Standing (history ++ [(c, a)]) (s.step c).1 := by
  intro id last t hlast
  have hsame : ∀ last, registration id last (c, a) = last := by
    intro last
    unfold registration
    split
    · rename_i heq
      cases heq
      cases hc
    · rename_i heq
      cases heq
      cases hc
    · rfl
  rw [lastRegistration_append, hsame] at hlast
  rw [step_entries s hc]
  rcases h id last t hlast with hentry | ⟨hgone, now, hnow, hlt⟩
  · exact .inl hentry
  · exact .inr ⟨hgone, now, mem_times_append _ hnow, hlt⟩

theorem step (h : Standing history s) (c : AgentCall) : Standing (history ++ [(c, (s.step c).2)]) (s.step c).1 := by
  cases c with
  | register session now => exact h.register session now
  | retireDestroyedAssociation id windows => exact h.retire id windows
  | queue id revision wm now => exact h.other rfl _
  | claim args now | receipt args now | activationStatus operation now | cancelActivation operation => exact h.other rfl _

theorem reached (calls : List AgentCall) :
    Standing (trace AgentSessions.step .default calls) (after AgentSessions.step .default calls) :=
  trace_invariant (fun _ _ c h => h.step c) nofun calls

theorem takeover (h : Standing history s) {old : AgentSession} {t : Nat} (htimes : ∀ t ∈ times (history.map Prod.fst), t ≤ now)
    (hstep : (s.step (.register session now)).2 = .registered (.ok ()))
    (hold : lastRegistration history session.sessionId = some (old, t))
    (hhost : old.hostId ≠ session.hostId ∨ old.hostIncarnation ≠ session.hostIncarnation) : t + lease < now := by
  rcases h _ old t hold with hentry | ⟨-, now', hnow', hlt⟩
  · change AgentAnswer.registered (s.register session now).2 = _ at hstep
    have hok := AgentAnswer.registered.inj hstep
    unfold AgentSessions.register at hok
    split at hok
    · cases hok
    · cases hadm : s.admitSession session now with
      | mk s' result =>
        rw [hadm] at hok
        cases result with
        | error e => cases hok
        | ok u => exact admit_takeover hadm hentry hhost
  · exact Nat.lt_of_lt_of_le hlt (htimes now' hnow')

end Standing

/-! ## The guarantee -/

/-- What every call of a run keeps to, `c` the next after `calls`. -/
structure OwnerReveals (calls : List AgentCall) (c : AgentCall) (s s' : AgentSessions) : Prop where
  /-- No two requests share an operation id. -/
  ids : ((newRequests .default (calls ++ [c])).map Reveal.operationId).Nodup
  /-- An operation is granted once. -/
  granted : (grants (trace AgentSessions.step .default (calls ++ [c]))).Nodup
  /-- A request is what it was but for its status, which moves one way; or it has just been queued. -/
  tracked : ∀ id r', s'.requests.get? id = some r' → (∃ r, s.requests.get? id = some r ∧ Tracked r r') ∨
    s.requests.get? id = none ∧ s.newRequest c = some r' ∧ r'.operationId = id ∧ r'.status = .queued ∧
      c.time = some r'.started
  /-- Revealed or failed by the owner's receipt only. -/
  settled : ∀ id r r', s.requests.get? id = some r → s'.requests.get? id = some r' → r'.status ≠ r.status →
    r'.status = .revealed ∨ r'.status = .failed → OwnReceipt s c r r'.status
  /-- One pending request per association. -/
  one : OnePending s'.requests
  /-- Another host or incarnation registers a session only when the last registration's lease has run out. -/
  owner : ∀ session now, c = .register session now → (s.step c).2 = .registered (.ok ()) → ∀ old t,
    lastRegistration (trace AgentSessions.step .default calls) session.sessionId = some (old, t) →
    old.hostId ≠ session.hostId ∨ old.hostIncarnation ≠ session.hostIncarnation → t + lease < now

section

variable {history : List (AgentCall × AgentAnswer)} {s : AgentSessions} {r' : Reveal} (h : Sound history s)
include h

theorem Sound.settled {r : Reveal} (hr : s.requests.get? id = some r) (hr' : (s.step c).1.requests.get? id = some r')
    (hne : r'.status ≠ r.status) (hend : r'.status = .revealed ∨ r'.status = .failed) :
    OwnReceipt s c r r'.status := by
  have hwaned : ∀ {m : KeyMap String Reveal}, Waned s.requests m → m.get? id = some r' → False := by
    intro m hm hmr
    obtain ⟨r₀, hr₀, hcase⟩ := hm id r' hmr
    rw [hr] at hr₀
    cases hr₀
    rcases hcase with rfl | ⟨-, rfl | rfl⟩
    · exact hne rfl
    · rcases hend with hend | hend <;> cases hend
    · rcases hend with hend | hend <;> cases hend
  have heffect := effect_step h.filed c
  generalize (s.step c).1 = s' at heffect hr'
  generalize (s.step c).2 = a at heffect
  cases heffect with
  | waned hm hsequence ha => exact absurd hr' fun hr' => hwaned hm hr'
  | queued hc hactive hm hone hsequence hs' =>
    rw [hs', get?_insert] at hr'
    split at hr'
    · cases hr'
      rcases hend with hend | hend <;> cases hend
    · exact absurd hr' fun hr' => hwaned hm hr'
  | @moved _ _ m r₁ status hm hr₁ hmove hsequence hs' ha hreceipt =>
    rw [hs', get?_insert] at hr'
    split at hr'
    · rename_i hid
      subst hid
      cases hr'
      obtain ⟨r₀, hr₀, hcase⟩ := hm _ r₁ hr₁
      rw [hr] at hr₀
      cases hr₀
      rcases hcase with rfl | ⟨-, hgone⟩
      · exact hreceipt hend
      · have hpending := hmove.pending
        rw [not_pending_waned hgone] at hpending
        cases hpending
    · exact absurd hr' fun hr' => hwaned hm hr'

theorem Sound.tracked (hr' : (s.step c).1.requests.get? id = some r') :
    (∃ r, s.requests.get? id = some r ∧ Tracked r r') ∨
      s.requests.get? id = none ∧ s.newRequest c = some r' ∧ r'.operationId = id ∧ r'.status = .queued ∧
        c.time = some r'.started := by
  rcases newRequest_spec h.filed c with ⟨-, -, htracks⟩ | ⟨session, wm, now, m, htime, hsequence, hnew, hwaned, hs'⟩
  · exact .inl (htracks id r' hr')
  · rw [hs', get?_insert] at hr'
    split at hr'
    · rename_i hid
      cases hr'
      refine .inr ⟨?_, hnew, hid.symm, rfl, htime⟩
      rw [eq_none_iff_forall_ne_some]
      intro r hr
      rw [hid] at hr
      exact not_numbered_operationId (Nat.lt_succ_self _) (h.numbered _ r hr)
    · exact .inl (hwaned.tracks id r' hr')

end

/-- A terminal pane is revealed only by its live owner's own receipt. -/
theorem revealed_by_owner_only (calls : List AgentCall) (c : AgentCall) (htimes : (times (calls ++ [c])).Pairwise (· ≤ ·)) :
    OwnerReveals calls c (after AgentSessions.step .default calls)
      ((after AgentSessions.step .default calls).step c).1 := by
  have hsound := Sound.reached calls
  have hnext := Sound.reached (calls ++ [c])
  have hafter : after AgentSessions.step .default (calls ++ [c]) =
      ((after AgentSessions.step .default calls).step c).1 := after_append _ _ _
  refine ⟨(newRequests_nodup (calls ++ [c]) Sound.start).1, hnext.once, fun id r' hr' => hsound.tracked hr',
    fun id r r' hr hr' => hsound.settled hr hr', hafter ▸ hnext.one, ?_⟩
  rintro session now rfl hstep old t hold hhost
  refine (Standing.reached calls).takeover (fun t ht => ?_) hstep hold hhost
  rw [map_fst_trace] at ht
  unfold times at htimes ht
  rw [filterMap_append, pairwise_append] at htimes
  exact htimes.2.2 t ht now (mem_singleton_self now)

/-! ## A run with a handover -/

def Sample.pane : AgentSession :=
  { sessionId := "s", projectId := "p", provider := "anvil", hostId := "h", hostIncarnation := "1", paneId := "7"
    windowToken := "w", title := "build", status := "waiting", canReveal := true, revision := 3 }

def Sample.receipt (status : String) : Value :=
  .object [("operation_id", .string "wm:agent:1"), ("session_id", .string "s"), ("host_id", .string "h"),
    ("host_incarnation", .string "1"), ("pane_id", .string "7"), ("window_token", .string "w"),
    ("revision", .number (some 3)), ("status", .string status)]

/-- A pane is registered, asked for, claimed and revealed. -/
def Sample.reveal : List AgentCall :=
  [.register Sample.pane 1, .queue "s" 3 "wm" 2, .claim (Sample.receipt "") 3, .claim (Sample.receipt "") 4,
    .receipt (Sample.receipt "revealed") 5]

theorem revealed_by_owner_only_handover :
    (times (Sample.reveal ++ [.register { Sample.pane with hostId := "other" } (lease + 2)])).Pairwise (· ≤ ·) ∧
      ((after AgentSessions.step .default Sample.reveal).requests.get? "wm:agent:1").map status =
        some .revealed ∧
      OwnerReveals Sample.reveal (.register { Sample.pane with hostId := "other" } (lease + 2))
        (after AgentSessions.step .default Sample.reveal)
        ((after AgentSessions.step .default Sample.reveal).step
          (.register { Sample.pane with hostId := "other" } (lease + 2))).1 :=
  ⟨by decide +kernel, by decide +kernel, revealed_by_owner_only _ _ (by decide +kernel)⟩

end Jwm.Features
