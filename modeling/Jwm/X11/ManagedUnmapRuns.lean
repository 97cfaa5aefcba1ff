/-
Every unmap of the window manager is recognised once: the queue of a window holds one entry for each of its requests still
owed a notification, no two with the same low 16 bits.
-/
import Jwm.X11.ManagedUnmap

namespace Jwm

open List ManagedUnmapTracker DeliveryCopies
open Option (map_some map_none bind_some)

/-! ## Finding the entry -/

variable {α : Type} {p : α → Bool} {a b : List PendingManagedUnmap} {e : PendingManagedUnmap} {sequence : Nat} {copy : UnmapCopy}
    {r : UnmapRequest} {reason : ManagedUnmapReason} {x : UnmapCall × UnmapAnswer}

theorem findIdx?_middle {a b : List α} {e : α} (ha : ∀ x ∈ a, p x = false) (he : p e = true) :
    (a ++ e :: b).findIdx? p = some a.length := by
  induction a with
  | nil => simp [findIdx?_cons, he]
  | cons x a ih =>
    have hx := ha x (by simp)
    rw [cons_append, findIdx?_cons, hx, ih fun y hy => ha y (by simp [hy])]
    rfl

theorem findIdx?_none {l : List α} (h : ∀ x ∈ l, p x = false) : l.findIdx? p = none := by
  rw [findIdx?_eq_none_iff]
  exact h

theorem rposition_middle {a b : List α} {e : α} (hb : ∀ x ∈ b, p x = false) (he : p e = true) :
    rposition p (a ++ e :: b) = some a.length := by
  have hrev : (a ++ e :: b).reverse = b.reverse ++ e :: a.reverse := by simp
  unfold rposition
  rw [hrev, findIdx?_middle (fun x hx => hb x (mem_reverse.1 hx)) he, map_some]
  simp only [length_reverse, length_append, length_cons, Option.some.injEq]
  omega

/-- An entry that no other one shares its wire sequence with is found, tombstone or not. -/
theorem matchIndex_middle (ha : ∀ x ∈ a, x.wireSequence ≠ e.wireSequence) (hb : ∀ x ∈ b, x.wireSequence ≠ e.wireSequence) :
    matchIndex (a ++ e :: b) e.wireSequence = some a.length := by
  unfold matchIndex
  have hother : ∀ x : PendingManagedUnmap, x.wireSequence ≠ e.wireSequence → (x.wireSequence == e.wireSequence) = false := fun x hx =>
    beq_eq_false_iff_ne.2 hx
  cases hs : e.suppressed with
  | false =>
    rw [rposition_middle (fun x hx => by rw [hother x (hb x hx), Bool.false_and]) (by rw [hs, beq_self_eq_true]; rfl)]
    rfl
  | true =>
    have hnone : rposition (fun p => p.wireSequence == e.wireSequence && !p.suppressed) (a ++ e :: b) = none := by
      unfold rposition
      rw [findIdx?_none, map_none]
      intro x hx
      rw [mem_reverse, mem_append, mem_cons] at hx
      rcases hx with hx | rfl | hx
      · rw [hother x (ha x hx), Bool.false_and]
      · rw [hs, Bool.not_true, Bool.and_false]
      · rw [hother x (hb x hx), Bool.false_and]
    rw [hnone, findIdx?_middle (fun x hx => hother x (ha x hx)) (beq_self_eq_true _)]
    rfl

/-! ## What each call does to the queues -/

section Queues

variable {t : ManagedUnmapTracker} {window : Nat}

theorem queueOf_remove (window w : Nat) : (t.clear window).queueOf w = if w = window then [] else t.queueOf w := by
  unfold queueOf clear
  rw [KeyMap.get?_remove]
  split
  · rfl
  · rfl

theorem queueOf_insert (window w : Nat) (queue : List PendingManagedUnmap) :
    queueOf ⟨t.pending.insert window queue⟩ w = if w = window then queue else t.queueOf w := by
  unfold queueOf
  rw [KeyMap.get?_insert]
  split
  · rfl
  · rfl

theorem ensureCapacity_iff : t.ensureCapacity window = true ↔ (t.queueOf window).length < maxPendingPerWindow := by
  unfold ensureCapacity queueOf
  cases t.pending.get? window with
  | none => simp [maxPendingPerWindow]
  | some queue => simp

theorem record_ok (h : t.ensureCapacity window = true) (sequence : Nat) (reason : ManagedUnmapReason) :
    (t.record window sequence reason).2 = true ∧ ∀ w, (t.record window sequence reason).1.queueOf w =
      if w = window then t.queueOf window ++ [{ fullSequence := sequence, reason := reason }] else t.queueOf w := by
  unfold record
  rw [if_pos h]
  exact ⟨rfl, fun w => queueOf_insert window w _⟩

theorem record_full (h : t.ensureCapacity window = false) (sequence : Nat) (reason : ManagedUnmapReason) :
    t.record window sequence reason = (t, false) := by
  unfold record
  rw [h, if_neg Bool.false_ne_true]

theorem classify_synthetic (root eventWindow sequence : Nat) (fromConfigure : Bool) :
    (t.classify root window eventWindow sequence true fromConfigure).2 = .external ∧
      ∀ w, (t.classify root window eventWindow sequence true fromConfigure).1.queueOf w =
        if w = window then (t.queueOf window).map fun p => { p with emitted := true, suppressed := true }
        else t.queueOf w := by
  refine ⟨rfl, fun w => ?_⟩
  show ((t.pending.modify window _).get? w).getD [] = _
  rw [KeyMap.get?_modify]
  unfold queueOf
  split
  · rename_i hw
    rw [hw]
    cases t.pending.get? window with
    | none | some queue => rfl
  · rfl

def UnmapCopy.eventWindow (root window : Nat) : UnmapCopy → Nat
  | .client => window
  | .root => root

def DeliveryCopies.with (c : DeliveryCopies) : UnmapCopy → DeliveryCopies
  | .client => { c with client := true }
  | .root => { c with parent := true }

theorem DeliveryCopies.with_eq {root : Nat} (hroot : window ≠ root) (c : DeliveryCopies) (copy : UnmapCopy) :
    (⟨c.client || (copy.eventWindow root window == window), c.parent || (copy.eventWindow root window == root)⟩ :
      DeliveryCopies) = c.with copy := by
  cases copy with
  | client => simp [UnmapCopy.eventWindow, DeliveryCopies.with, hroot]
  | root => simp [UnmapCopy.eventWindow, DeliveryCopies.with, Ne.symm hroot]

theorem deliver_middle {root : Nat} (hroot : window ≠ root) (a b : List PendingManagedUnmap) (e : PendingManagedUnmap)
    (copy : UnmapCopy) :
    deliver (a ++ e :: b) a.length e (copy.eventWindow root window == window)
        (copy.eventWindow root window == root) =
      (if (e.copies.with copy).complete then a ++ b
        else a ++ { e with copies := e.copies.with copy, emitted := true } :: b,
       if e.emitted then .managerDuplicate else .managerOwned e.reason) := by
  unfold deliver
  dsimp only
  rw [with_eq hroot]
  refine Prod.ext ?_ rfl
  split
  · rw [eraseIdx_append_of_length_le (Nat.le_refl _), Nat.sub_self, eraseIdx_cons_zero]
  · rw [set_append_right _ _ (Nat.le_refl _), Nat.sub_self, set_cons_zero]

/-- A copy of a request's notification: the entry is emitted once, and leaves the queue with its second copy. -/
theorem classify_copy {root : Nat} (hroot : window ≠ root)
    (hq : t.queueOf window = a ++ e :: b) (ha : ∀ x ∈ a, x.wireSequence ≠ e.wireSequence)
    (hb : ∀ x ∈ b, x.wireSequence ≠ e.wireSequence) (copy : UnmapCopy) :
    (t.classify root window (copy.eventWindow root window) e.wireSequence false false).2 =
      (if e.emitted then .managerDuplicate else .managerOwned e.reason) ∧
    ∀ w, (t.classify root window (copy.eventWindow root window) e.wireSequence false false).1.queueOf w =
      if w = window then
        (if (e.copies.with copy).complete then a ++ b
          else a ++ { e with copies := e.copies.with copy, emitted := true } :: b)
      else t.queueOf w := by
  have hget : t.pending.get? window = some (a ++ e :: b) := by
    unfold queueOf at hq
    cases hp : t.pending.get? window with
    | none =>
      rw [hp] at hq
      simp at hq
    | some queue =>
      rw [hp] at hq
      exact congrArg some hq
  -- which of the two copies it is
  have hcopy : (!(copy.eventWindow root window == window) && !(copy.eventWindow root window == root)) = false := by
    cases copy with
    | client | root => simp [UnmapCopy.eventWindow]
  have helem : (a ++ e :: b)[a.length]? = some e := by simp
  unfold classify
  dsimp only
  rw [if_neg Bool.false_ne_true, if_neg Bool.false_ne_true, hcopy, if_neg Bool.false_ne_true, hget]
  dsimp only
  rw [matchIndex_middle ha hb, bind_some, helem, map_some]
  dsimp only
  rw [deliver_middle hroot]
  have hstored : ∀ (queue : List PendingManagedUnmap) (w : Nat),
      (if queue.isEmpty then t.clear window else ⟨t.pending.insert window queue⟩).queueOf w =
        if w = window then queue else t.queueOf w := by
    intro queue w
    split
    · rename_i hempty
      rw [queueOf_remove, isEmpty_iff.1 hempty]
    · exact queueOf_insert window w queue
  exact ⟨rfl, hstored _⟩

end Queues

/-! ## The requests owed -/

theorem mem_deliverTo {window : Nat} {sent : List UnmapRequest} : r ∈ deliverTo window sequence copy sent ↔ r.complete = false ∧
      (r ∈ sent ∧ ¬(r.window = window ∧ r.sequence = sequence) ∨
        ∃ o ∈ sent, (o.window = window ∧ o.sequence = sequence) ∧ o.deliver copy = r) := by
  unfold deliverTo
  rw [mem_filter, List.mem_map, Bool.not_eq_true', and_comm]
  refine and_congr_right fun _ => ⟨?_, ?_⟩
  · rintro ⟨o, ho, rfl⟩
    by_cases heq : o.window = window ∧ o.sequence = sequence
    · rw [if_pos heq]
      exact .inr ⟨o, ho, heq, rfl⟩
    · rw [if_neg heq]
      exact .inl ⟨ho, heq⟩
  · rintro (⟨hr, hne⟩ | ⟨o, ho, heq, rfl⟩)
    · exact ⟨r, hr, if_neg hne⟩
    · exact ⟨o, ho, if_pos heq⟩

/-- Sequences less than `2^16` apart that share their low bits are one. -/
theorem lowSequence_injective {a b : Nat} (hab : a < b + 2 ^ 16) (hba : b < a + 2 ^ 16)
    (h : lowSequence a = lowSequence b) : a = b := by
  unfold lowSequence at h
  omega

/-! ## The story of an entry -/

def UnmapCall.withdraws (window : Nat) : UnmapCall → Bool
  | .synthetic w _ _ _ => w == window
  | _ => false

/-- Whether that copy of the request's notification is among these calls. -/
def copyCame (window sequence : Nat) (copy : UnmapCopy) (calls : List (UnmapCall × UnmapAnswer)) : Bool :=
  calls.any fun x => decide (x.1 = .notify window sequence copy)

def withdrawalCame (window : Nat) (calls : List (UnmapCall × UnmapAnswer)) : Bool :=
  calls.any fun x => x.1.withdraws window

/-- Whether something among these calls keeps the request's next notification from being reported. -/
def settledBy (window sequence : Nat) (calls : List (UnmapCall × UnmapAnswer)) : Bool :=
  copyCame window sequence .client calls || copyCame window sequence .root calls || withdrawalCame window calls

/-- The one successful record of a sequence, and what has come since. -/
structure RecordedIn (history : List (UnmapCall × UnmapAnswer)) (window sequence : Nat) (reason : ManagedUnmapReason)
    (since : List (UnmapCall × UnmapAnswer)) : Prop where
  suffix : ∃ earlier, history = earlier ++ (.record window sequence reason, .recorded true) :: since ∧
    ∀ w ρ, (UnmapCall.record w sequence ρ, UnmapAnswer.recorded true) ∉ earlier
  once : ∀ w ρ, (UnmapCall.record w sequence ρ, UnmapAnswer.recorded true) ∉ since

def Told (window : Nat) (history : List (UnmapCall × UnmapAnswer)) (e : PendingManagedUnmap) : Prop :=
  ∃ since, RecordedIn history window e.fullSequence e.reason since ∧
    e.copies = ⟨copyCame window e.fullSequence .client since, copyCame window e.fullSequence .root since⟩ ∧
    e.emitted = settledBy window e.fullSequence since

theorem RecordedIn.mem {history since : List (UnmapCall × UnmapAnswer)} {window : Nat}
    (h : RecordedIn history window sequence reason since) :
    (UnmapCall.record window sequence reason, UnmapAnswer.recorded true) ∈ history := by
  obtain ⟨earlier, rfl, -⟩ := h.suffix
  simp

theorem copyCame_snoc (window sequence : Nat) (copy : UnmapCopy) (calls : List (UnmapCall × UnmapAnswer))
    (x : UnmapCall × UnmapAnswer) : copyCame window sequence copy (calls ++ [x]) =
      (copyCame window sequence copy calls || decide (x.1 = .notify window sequence copy)) := by
  unfold copyCame
  rw [any_append, any_cons, any_nil, Bool.or_false]

theorem withdrawalCame_snoc (window : Nat) (calls : List (UnmapCall × UnmapAnswer)) (x : UnmapCall × UnmapAnswer) :
    withdrawalCame window (calls ++ [x]) = (withdrawalCame window calls || x.1.withdraws window) := by
  unfold withdrawalCame
  rw [any_append, any_cons, any_nil, Bool.or_false]

theorem RecordedIn.snoc {history since : List (UnmapCall × UnmapAnswer)} {window sequence : Nat}
    {reason : ManagedUnmapReason} (h : RecordedIn history window sequence reason since) {x : UnmapCall × UnmapAnswer}
    (hx : ∀ w ρ, x ≠ (UnmapCall.record w sequence ρ, UnmapAnswer.recorded true)) :
    RecordedIn (history ++ [x]) window sequence reason (since ++ [x]) := by
  obtain ⟨⟨earlier, rfl, hearlier⟩, honce⟩ := h
  refine ⟨⟨earlier, by simp, hearlier⟩, fun w ρ hmem => ?_⟩
  rcases mem_append.1 hmem with hmem | hmem
  · exact honce w ρ hmem
  · exact hx w ρ (mem_singleton.1 hmem).symm

theorem Told.snoc {window : Nat} {history : List (UnmapCall × UnmapAnswer)} {e e' : PendingManagedUnmap}
    (h : Told window history e) {x : UnmapCall × UnmapAnswer}
    (hx : ∀ w ρ, x ≠ (UnmapCall.record w e.fullSequence ρ, UnmapAnswer.recorded true))
    (hsequence : e'.fullSequence = e.fullSequence) (hreason : e'.reason = e.reason)
    (hclient : e'.copies.client = (e.copies.client || decide (x.1 = .notify window e.fullSequence .client)))
    (hparent : e'.copies.parent = (e.copies.parent || decide (x.1 = .notify window e.fullSequence .root)))
    (hemitted : e'.emitted = (e.emitted || decide (x.1 = .notify window e.fullSequence .client) ||
      decide (x.1 = .notify window e.fullSequence .root) || x.1.withdraws window)) :
    Told window (history ++ [x]) e' := by
  obtain ⟨since, hrecorded, hcopies, htold⟩ := h
  refine ⟨since ++ [x], ?_, ?_, ?_⟩
  · rw [hsequence, hreason]
    exact hrecorded.snoc hx
  · rw [hsequence, copyCame_snoc, copyCame_snoc]
    rw [hcopies] at hclient hparent
    rw [← hclient, ← hparent]
  · rw [hsequence, hemitted, htold]
    unfold settledBy
    rw [copyCame_snoc, copyCame_snoc, withdrawalCame_snoc]
    ac_rfl

/-- A call that is no record, no copy of the entry's notification and no withdrawal of its window tells nothing. -/
theorem Told.idle {window : Nat} {history : List (UnmapCall × UnmapAnswer)} (h : Told window history e)
    (hx : ∀ w ρ, x ≠ (UnmapCall.record w e.fullSequence ρ, UnmapAnswer.recorded true))
    (hcopy : ∀ copy, x.1 ≠ .notify window e.fullSequence copy) (hwithdraw : x.1.withdraws window = false) :
    Told window (history ++ [x]) e := by
  refine h.snoc hx rfl rfl ?_ ?_ ?_
  · rw [decide_eq_false (hcopy _), Bool.or_false]
  · rw [decide_eq_false (hcopy _), Bool.or_false]
  · rw [decide_eq_false (hcopy _), decide_eq_false (hcopy _), hwithdraw, Bool.or_false, Bool.or_false, Bool.or_false]

/-! ## The invariant -/

/-- The queues after a history: one entry for each request still owed a notification. -/
structure UnmapsKept (root : Nat) (history : List (UnmapCall × UnmapAnswer)) (w : UnmapWorld) : Prop where
  apart : ∀ window, (w.tracker.queueOf window).Pairwise fun e f => e.wireSequence ≠ f.wireSequence
  owed : ∀ window sequence copies,
    (∃ e ∈ w.tracker.queueOf window, e.fullSequence = sequence ∧ e.copies = copies) ↔
      ({ window := window, sequence := sequence, client := copies.client, root := copies.parent } : UnmapRequest) ∈ w.sent
  away : ∀ r ∈ w.sent, r.window ≠ root
  owes : ∀ r ∈ w.sent, r.complete = false
  used : ∀ sequence, sequence ∈ w.used ↔
    ∃ window ρ, (UnmapCall.record window sequence ρ, UnmapAnswer.recorded true) ∈ history
  bounded : ∀ window, (w.tracker.queueOf window).length ≤ maxPendingPerWindow
  told : ∀ window, ∀ e ∈ w.tracker.queueOf window, Told window history e

section Kept

variable {root : Nat} {history : List (UnmapCall × UnmapAnswer)} {w : UnmapWorld}

theorem unmapsKept_initial (root : Nat) : UnmapsKept root [] UnmapWorld.initial where
  apart _ := List.Pairwise.nil
  owed _ _ _ := ⟨fun ⟨_, he, _⟩ => (not_mem_nil he).elim, fun h => (not_mem_nil h).elim⟩
  away _ h := (not_mem_nil h).elim
  owes _ h := (not_mem_nil h).elim
  used _ := ⟨fun h => (not_mem_nil h).elim, fun ⟨_, _, h⟩ => (not_mem_nil h).elim⟩
  bounded _ := Nat.zero_le _
  told _ _ h := (not_mem_nil h).elim

section

variable (h : UnmapsKept root history w)
include h

theorem UnmapsKept.request {window : Nat} (he : e ∈ w.tracker.queueOf window) :
    ({ window := window, sequence := e.fullSequence, client := e.copies.client, root := e.copies.parent } :
      UnmapRequest) ∈ w.sent :=
  (h.owed window e.fullSequence e.copies).1 ⟨e, he, rfl, rfl⟩

theorem UnmapsKept.entry (hr : r ∈ w.sent) :
    ∃ e ∈ w.tracker.queueOf r.window, e.fullSequence = r.sequence ∧ e.copies = ⟨r.client, r.root⟩ :=
  (h.owed r.window r.sequence ⟨r.client, r.root⟩).2 hr

section

variable {window : Nat} (he : e ∈ w.tracker.queueOf window)
include he

theorem UnmapsKept.incomplete : e.copies.complete = false :=
  h.owes _ (h.request he)

theorem UnmapsKept.sequence_used : e.fullSequence ∈ w.used := by
  obtain ⟨since, hrecorded, -⟩ := h.told window e he
  exact (h.used _).2 ⟨window, e.reason, hrecorded.mem⟩

theorem UnmapsKept.split : ∃ a b, w.tracker.queueOf window = a ++ e :: b ∧
      (∀ x ∈ a, x.wireSequence ≠ e.wireSequence) ∧ ∀ x ∈ b, x.wireSequence ≠ e.wireSequence := by
  obtain ⟨a, b, hab⟩ := append_of_mem he
  have hapart := h.apart window
  rw [hab, pairwise_append, pairwise_cons] at hapart
  obtain ⟨-, ⟨hb, -⟩, ha⟩ := hapart
  exact ⟨a, b, hab, fun x hx => ha x hx e mem_cons_self, fun x hx => (hb x hx).symm⟩

end

section

variable (hx : ∀ window sequence ρ, x ≠ (UnmapCall.record window sequence ρ, UnmapAnswer.recorded true))
include hx

theorem UnmapsKept.used_snoc (sequence : Nat) :
    sequence ∈ w.used ↔
      ∃ window ρ, (UnmapCall.record window sequence ρ, UnmapAnswer.recorded true) ∈ history ++ [x] := by
  refine (h.used sequence).trans ⟨fun ⟨window, ρ, hmem⟩ => ⟨window, ρ, mem_append_left _ hmem⟩, ?_⟩
  rintro ⟨window, ρ, hmem⟩
  rcases mem_append.1 hmem with hmem | hmem
  · exact ⟨window, ρ, hmem⟩
  · exact (hx _ _ _ (mem_singleton.1 hmem).symm).elim

theorem UnmapsKept.idle
    (hcopy : ∀ window sequence copy, x.1 ≠ .notify window sequence copy)
    (hwithdraw : ∀ window, x.1.withdraws window = false) : UnmapsKept root (history ++ [x]) w :=
  { h with
    used := h.used_snoc hx
    told := fun window e he => (h.told window e he).idle (fun w ρ => hx w _ ρ) (hcopy window _) (hwithdraw window) }

end

theorem UnmapsKept.recorded {window : Nat}
    (hserved : ServedBy root w (.record window sequence reason)) (hcapacity : w.tracker.ensureCapacity window = true) :
    UnmapsKept root (history ++ [(.record window sequence reason, .recorded true)])
      { tracker := (w.tracker.record window sequence reason).1
        sent := w.sent ++ [{ window := window, sequence := sequence }]
        used := sequence :: w.used } := by
  obtain ⟨hroot, hfresh, hnear⟩ := hserved hcapacity
  have hqueue := (record_ok hcapacity sequence reason).2
  have hlow : ∀ e ∈ w.tracker.queueOf window, e.wireSequence ≠ lowSequence sequence := by
    intro e he heq
    obtain ⟨hlt, hgt⟩ := hnear _ (h.request he) rfl
    exact hfresh (lowSequence_injective hgt hlt heq ▸ h.sequence_used he)
  refine { apart := fun v => ?_, owed := fun v q c => ?_, away := fun r hr => ?_, owes := fun r hr => ?_,
           used := fun q => ?_, bounded := fun v => ?_, told := fun v e he => ?_ }
  · rw [hqueue v]
    split
    · refine pairwise_append.2 ⟨h.apart window, pairwise_singleton _ _, fun e he f hf => ?_⟩
      rw [mem_singleton.1 hf]
      exact hlow e he
    · exact h.apart v
  · rw [hqueue v, mem_append, mem_singleton]
    split
    · rename_i hv
      subst hv
      rw [← h.owed v q c]
      constructor
      · rintro ⟨e, he, rfl, rfl⟩
        rcases mem_append.1 he with he | he
        · exact .inl ⟨e, he, rfl, rfl⟩
        · rw [mem_singleton.1 he]
          exact .inr rfl
      · rintro (⟨e, he, heq⟩ | heq)
        · exact ⟨e, mem_append_left _ he, heq⟩
        · simp only [UnmapRequest.mk.injEq] at heq
          obtain ⟨-, rfl, hclient, hparent⟩ := heq
          refine ⟨_, mem_append_right _ (mem_singleton_self _), rfl, ?_⟩
          rw [show c = ⟨c.client, c.parent⟩ from rfl, hclient, hparent]
    · rename_i hv
      refine (h.owed v q c).trans ⟨.inl, fun hmem => hmem.elim id fun heq => ?_⟩
      exact absurd (congrArg UnmapRequest.window heq) hv
  · rcases mem_append.1 hr with hr | hr
    · exact h.away r hr
    · rw [mem_singleton.1 hr]
      exact hroot
  · rcases mem_append.1 hr with hr | hr
    · exact h.owes r hr
    · rw [mem_singleton.1 hr]
      rfl
  · rw [mem_cons, h.used q]
    constructor
    · rintro (rfl | ⟨v, ρ, hmem⟩)
      · exact ⟨window, reason, mem_append_right _ (mem_singleton_self _)⟩
      · exact ⟨v, ρ, mem_append_left _ hmem⟩
    · rintro ⟨v, ρ, hmem⟩
      rcases mem_append.1 hmem with hmem | hmem
      · exact .inr ⟨v, ρ, hmem⟩
      · have heq := mem_singleton.1 hmem
        simp only [Prod.mk.injEq, UnmapCall.record.injEq] at heq
        exact .inl heq.1.2.1
  · rw [hqueue v]
    split
    · rw [length_append, length_singleton]
      exact ensureCapacity_iff.1 hcapacity
    · exact h.bounded v
  · -- an entry that was there already: its sequence is not the new one
    have hold : ∀ e ∈ w.tracker.queueOf v,
        Told v (history ++ [(.record window sequence reason, .recorded true)]) e := by
      intro e he
      refine (h.told v e he).idle (fun u ρ heq => ?_) (fun _ => UnmapCall.noConfusion) rfl
      simp only [Prod.mk.injEq, UnmapCall.record.injEq] at heq
      exact hfresh (heq.1.2.1 ▸ h.sequence_used he)
    rw [hqueue v] at he
    split at he
    · rename_i hv
      subst hv
      rcases mem_append.1 he with he | he
      · exact hold e he
      · rw [mem_singleton.1 he]
        refine ⟨[], ⟨⟨history, rfl, fun u ρ hmem => ?_⟩, fun _ _ => not_mem_nil⟩, rfl, rfl⟩
        exact hfresh ((h.used sequence).2 ⟨u, ρ, hmem⟩)
    · exact hold e he

/-- A withdrawal: what is still to come of its window's requests is only swallowed. -/
theorem UnmapsKept.withdrawn (window eventWindow sequence : Nat) (fromConfigure : Bool) (answer : UnmapAnswer) :
    UnmapsKept root (history ++ [(.synthetic window eventWindow sequence fromConfigure, answer)])
      { w with tracker := (w.tracker.classify root window eventWindow sequence true fromConfigure).1 } := by
  have hqueue := (@classify_synthetic w.tracker window root eventWindow sequence fromConfigure).2
  have hx : ∀ v q ρ, ((UnmapCall.synthetic window eventWindow sequence fromConfigure, answer) :
      UnmapCall × UnmapAnswer) ≠ (UnmapCall.record v q ρ, UnmapAnswer.recorded true) := by
    intro v q ρ heq
    exact UnmapCall.noConfusion (congrArg Prod.fst heq)
  refine { apart := fun v => ?_, owed := fun v q c => ?_, away := h.away, owes := h.owes, used := h.used_snoc hx,
           bounded := fun v => ?_, told := fun v e he => ?_ }
  · rw [hqueue v]
    split
    · rw [pairwise_map]
      exact h.apart window
    · exact h.apart v
  · rw [← h.owed v q c, hqueue v]
    split
    · rename_i hv
      subst hv
      constructor
      · rintro ⟨_, hmem, heq⟩
        obtain ⟨e, he, rfl⟩ := List.mem_map.1 hmem
        exact ⟨e, he, heq⟩
      · rintro ⟨e, he, heq⟩
        exact ⟨_, List.mem_map_of_mem he, heq⟩
    · exact Iff.rfl
  · rw [hqueue v]
    split
    · rw [length_map]
      exact h.bounded window
    · exact h.bounded v
  · rw [hqueue v] at he
    split at he
    · rename_i hv
      subst hv
      obtain ⟨e, hmem, rfl⟩ := List.mem_map.1 he
      refine (h.told v e hmem).snoc (fun u ρ => hx u _ ρ) rfl rfl ?_ ?_ ?_
      · rw [decide_eq_false UnmapCall.noConfusion, Bool.or_false]
      · rw [decide_eq_false UnmapCall.noConfusion, Bool.or_false]
      · show true = (_ || (v == v))
        rw [beq_self_eq_true, Bool.or_true]
    · rename_i hv
      exact (h.told v e he).idle (fun u ρ => hx u _ ρ) (fun _ => UnmapCall.noConfusion) (beq_eq_false_iff_ne.2 (Ne.symm hv))

theorem UnmapsKept.destroyed (window : Nat) (answer : UnmapAnswer) : UnmapsKept root (history ++ [(.destroy window, answer)])
      { w with tracker := w.tracker.clear window, sent := w.sent.filter (·.window ≠ window) } := by
  have hx : ∀ v q ρ, ((UnmapCall.destroy window, answer) : UnmapCall × UnmapAnswer) ≠
      (UnmapCall.record v q ρ, UnmapAnswer.recorded true) := by
    intro v q ρ heq
    exact UnmapCall.noConfusion (congrArg Prod.fst heq)
  refine { apart := fun v => ?_, owed := fun v q c => ?_, away := fun r hr => h.away r (mem_of_mem_filter hr),
           owes := fun r hr => h.owes r (mem_of_mem_filter hr), used := h.used_snoc hx, bounded := fun v => ?_,
           told := fun v e he => ?_ }
  · rw [queueOf_remove]
    split
    · exact List.Pairwise.nil
    · exact h.apart v
  · rw [queueOf_remove, mem_filter, ← h.owed v q c, decide_eq_true_iff]
    split
    · rename_i hv
      exact ⟨fun ⟨_, he, _⟩ => (not_mem_nil he).elim, fun hmem => absurd hv hmem.2⟩
    · rename_i hv
      exact ⟨fun hmem => ⟨hmem, hv⟩, And.left⟩
  · rw [queueOf_remove]
    split
    · exact Nat.zero_le _
    · exact h.bounded v
  · rw [queueOf_remove] at he
    split at he
    · exact (not_mem_nil he).elim
    · exact (h.told v e he).idle (fun u ρ => hx u _ ρ) (fun _ => UnmapCall.noConfusion) rfl

end

theorem DeliveryCopies.with_client (c : DeliveryCopies) (copy : UnmapCopy) :
    (c.with copy).client = (c.client || decide (copy = .client)) := by
  cases copy with
  | client => exact (Bool.or_true _).symm
  | root => exact (Bool.or_false _).symm

theorem DeliveryCopies.with_parent (c : DeliveryCopies) (copy : UnmapCopy) :
    (c.with copy).parent = (c.parent || decide (copy = .root)) := by
  cases copy with
  | client => exact (Bool.or_false _).symm
  | root => exact (Bool.or_true _).symm

theorem UnmapRequest.deliver_copies (window sequence : Nat) (c : DeliveryCopies) (copy : UnmapCopy) :
    ({ window := window, sequence := sequence, client := c.client, root := c.parent } : UnmapRequest).deliver copy =
      { window := window, sequence := sequence, client := (c.with copy).client, root := (c.with copy).parent } := by
  cases copy with
  | client | root => rfl

theorem UnmapsKept.served (h : UnmapsKept root history w) {window : Nat}
    (hserved : ServedBy root w (.notify window sequence copy)) :
    window ≠ root ∧ ∃ e ∈ w.tracker.queueOf window, e.fullSequence = sequence ∧
      ({ window := window, sequence := sequence, client := e.copies.client, root := e.copies.parent } :
        UnmapRequest).awaits copy = true := by
  obtain ⟨r, hr, rfl, rfl, hawaits⟩ := hserved
  obtain ⟨e, he, hsequence, hcopies⟩ := h.entry hr
  refine ⟨h.away r hr, e, he, hsequence, ?_⟩
  rw [hcopies]
  exact hawaits

/-- The queue of a window after a copy of the notification of `e`. -/
def queueAfter (a b : List PendingManagedUnmap) (e : PendingManagedUnmap) (copy : UnmapCopy) :
    List PendingManagedUnmap :=
  if (e.copies.with copy).complete then a ++ b
  else a ++ { e with copies := e.copies.with copy, emitted := true } :: b

theorem mem_queueAfter {f : PendingManagedUnmap} : f ∈ queueAfter a b e copy ↔ (f ∈ a ∨ f ∈ b) ∨
      (e.copies.with copy).complete = false ∧ f = { e with copies := e.copies.with copy, emitted := true } := by
  unfold queueAfter
  split
  · rename_i hcomplete
    rw [mem_append, hcomplete]
    simp
  · rename_i hcomplete
    rw [mem_append, mem_cons, Bool.not_eq_true _ |>.mp hcomplete]
    tauto

theorem UnmapsKept.notified (h : UnmapsKept root history w) {window : Nat} (hab : w.tracker.queueOf window = a ++ e :: b)
    (hsequence : e.fullSequence = sequence) (ha : ∀ x ∈ a, x.wireSequence ≠ e.wireSequence)
    (hb : ∀ x ∈ b, x.wireSequence ≠ e.wireSequence) {tracker : ManagedUnmapTracker}
    (hqueue : ∀ v, tracker.queueOf v = if v = window then queueAfter a b e copy else w.tracker.queueOf v)
    (answer : UnmapAnswer) :
    UnmapsKept root (history ++ [(.notify window sequence copy, answer)])
      { w with tracker, sent := deliverTo window sequence copy w.sent } := by
  subst hsequence
  have hx : ∀ v q ρ, ((UnmapCall.notify window e.fullSequence copy, answer) : UnmapCall × UnmapAnswer) ≠
      (UnmapCall.record v q ρ, UnmapAnswer.recorded true) := by
    intro v q ρ heq
    exact UnmapCall.noConfusion (congrArg Prod.fst heq)
  have he : e ∈ w.tracker.queueOf window := by
    rw [hab]
    simp
  -- the others of the queue carry other sequences
  have hother : ∀ f, f ∈ a ∨ f ∈ b → f ∈ w.tracker.queueOf window ∧ f.fullSequence ≠ e.fullSequence := by
    rintro f (hf | hf)
    · exact ⟨by rw [hab]; simp [hf], fun heq => ha f hf (congrArg lowSequence heq)⟩
    · exact ⟨by rw [hab]; simp [hf], fun heq => hb f hf (congrArg lowSequence heq)⟩
  have hothers : ∀ f ∈ w.tracker.queueOf window, f = e ∨ f ∈ a ∨ f ∈ b := by
    intro f hf
    rw [hab, mem_append, mem_cons] at hf
    tauto
  refine { apart := fun v => ?_, owed := fun v q c => ?_, away := fun r hr => ?_,
           owes := fun r hr => (mem_deliverTo.1 hr).1, used := h.used_snoc hx, bounded := fun v => ?_,
           told := fun v f hf => ?_ }
  · rw [hqueue v]
    split
    · have hapart := h.apart window
      rw [hab] at hapart
      unfold queueAfter
      split
      · exact hapart.sublist ((sublist_cons_self e b).append_left a)
      · rw [pairwise_append, pairwise_cons] at hapart ⊢
        refine ⟨hapart.1, hapart.2.1, fun x hx y hy => ?_⟩
        rcases mem_cons.1 hy with rfl | hy
        · exact hapart.2.2 x hx e mem_cons_self
        · exact hapart.2.2 x hx y (mem_cons_of_mem _ hy)
    · exact h.apart v
  · rw [hqueue v, mem_deliverTo]
    by_cases hreq : v = window ∧ q = e.fullSequence
    · -- the request of this notification
      obtain ⟨rfl, rfl⟩ := hreq
      rw [if_pos rfl]
      have hone : ∀ o ∈ w.sent, o.window = v → o.sequence = e.fullSequence →
          o = { window := v, sequence := e.fullSequence, client := e.copies.client, root := e.copies.parent } := by
        rintro o ho rfl hseq
        obtain ⟨f, hf, hfseq, hfcopies⟩ := h.entry ho
        rcases hothers f hf with rfl | hf
        · rw [hfcopies, ← hseq]
        · exact absurd (hfseq.trans hseq) (hother f hf).2
      constructor
      · rintro ⟨f, hf, hfseq, rfl⟩
        rcases mem_queueAfter.1 hf with hf | ⟨hcomplete, rfl⟩
        · exact absurd hfseq (hother f hf).2
        · exact ⟨hcomplete, .inr ⟨_, h.request he, ⟨rfl, rfl⟩, UnmapRequest.deliver_copies _ _ _ _⟩⟩
      · rintro ⟨hcomplete, ⟨-, hne⟩ | ⟨o, ho, ⟨hwindow, hseq⟩, heq⟩⟩
        · exact absurd ⟨rfl, rfl⟩ hne
        · rw [hone o ho hwindow hseq, UnmapRequest.deliver_copies] at heq
          simp only [UnmapRequest.mk.injEq, true_and] at heq
          have hc : c = e.copies.with copy := by
            rw [show c = ⟨c.client, c.parent⟩ from rfl, ← heq.1, ← heq.2]
          subst hc
          exact ⟨_, mem_queueAfter.2 (.inr ⟨hcomplete, rfl⟩), rfl, rfl⟩
    · -- another request
      have hright : (∃ o ∈ w.sent, (o.window = window ∧ o.sequence = e.fullSequence) ∧ o.deliver copy =
          { window := v, sequence := q, client := c.client, root := c.parent }) → False := by
        rintro ⟨o, -, ⟨hwindow, hseq⟩, heq⟩
        refine hreq ⟨?_, ?_⟩
        · rw [← hwindow, ← show (o.deliver copy).window = v from congrArg UnmapRequest.window heq]
          cases copy <;> rfl
        · rw [← hseq, ← show (o.deliver copy).sequence = q from congrArg UnmapRequest.sequence heq]
          cases copy <;> rfl
      refine Iff.trans ?_ ⟨fun hmem => ⟨h.owes _ hmem, .inl ⟨hmem, hreq⟩⟩, fun hmem => hmem.2.elim And.left fun ho =>
        (hright ho).elim⟩
      rw [← h.owed v q c]
      split
      · rename_i hv
        subst hv
        constructor
        · rintro ⟨f, hf, hfseq, hfcopies⟩
          rcases mem_queueAfter.1 hf with hf | ⟨-, rfl⟩
          · exact ⟨f, (hother f hf).1, hfseq, hfcopies⟩
          · exact absurd ⟨rfl, hfseq.symm⟩ hreq
        · rintro ⟨f, hf, hfseq, hfcopies⟩
          rcases hothers f hf with rfl | hf
          · exact absurd ⟨rfl, hfseq.symm⟩ hreq
          · exact ⟨f, mem_queueAfter.2 (.inl hf), hfseq, hfcopies⟩
      · exact Iff.rfl
  · rcases (mem_deliverTo.1 hr).2 with ⟨hr, -⟩ | ⟨o, ho, -, rfl⟩
    · exact h.away r hr
    · have haway := h.away o ho
      cases copy with
      | client | root => exact haway
  · rw [hqueue v]
    split
    · refine Nat.le_trans ?_ (h.bounded window)
      rw [hab]
      unfold queueAfter
      split
      · simp
      · simp
    · exact h.bounded v
  · rw [hqueue v] at hf
    split at hf
    · rename_i hv
      subst hv
      rcases mem_queueAfter.1 hf with hf | ⟨-, rfl⟩
      · obtain ⟨hf, hne⟩ := hother f hf
        refine (h.told v f hf).idle (fun u ρ => hx u _ ρ) (fun c heq => ?_) rfl
        simp only [UnmapCall.notify.injEq] at heq
        exact hne heq.2.1.symm
      · refine (h.told v e he).snoc (fun u ρ => hx u _ ρ) rfl rfl ?_ ?_ ?_
        · simp [with_client]
        · simp [with_parent]
        · cases copy with
          | client | root => simp
    · rename_i hv
      refine (h.told v f hf).idle (fun u ρ => hx u _ ρ) (fun c heq => ?_) rfl
      simp only [UnmapCall.notify.injEq] at heq
      exact hv heq.1.symm

theorem UnmapWorld.step_notify (root : Nat) (w : UnmapWorld) (window sequence : Nat) (copy : UnmapCopy) :
    UnmapWorld.step root w (.notify window sequence copy) =
      let (tracker, disposition) :=
        w.tracker.classify root window (copy.eventWindow root window) (lowSequence sequence) false false
      ({ w with tracker, sent := deliverTo window sequence copy w.sent }, .classified disposition) := by
  cases copy with
  | client | root => rfl

theorem UnmapsKept.notify (h : UnmapsKept root history w) {window : Nat}
    (hserved : ServedBy root w (.notify window sequence copy)) :
    ∃ e a b, e ∈ w.tracker.queueOf window ∧ e.fullSequence = sequence ∧
      (w.tracker.queueOf window = a ++ e :: b ∧ (∀ x ∈ a, x.wireSequence ≠ e.wireSequence) ∧
        ∀ x ∈ b, x.wireSequence ≠ e.wireSequence) ∧
      ((e.copies.client = true ∨ e.copies.parent = true) → (e.copies.with copy).complete = true) ∧
      (UnmapWorld.step root w (.notify window sequence copy)).2 =
        .classified (if e.emitted then .managerDuplicate else .managerOwned e.reason) ∧
      ∀ v, (UnmapWorld.step root w (.notify window sequence copy)).1.tracker.queueOf v =
        if v = window then queueAfter a b e copy else w.tracker.queueOf v := by
  obtain ⟨hroot, e, he, rfl, hawaits⟩ := h.served hserved
  obtain ⟨a, b, hab, ha, hb⟩ := h.split he
  have hclassified := classify_copy hroot hab ha hb copy
  refine ⟨e, a, b, he, rfl, ⟨hab, ha, hb⟩, fun hcame => ?_, ?_, fun v => ?_⟩
  · have hincomplete := h.incomplete he
    cases copy with
    | client | root =>
      simp only [UnmapRequest.awaits, Bool.not_eq_true'] at hawaits
      simpa [DeliveryCopies.with, DeliveryCopies.complete, hawaits] using hcame
  · rw [UnmapWorld.step_notify]
    exact congrArg UnmapAnswer.classified hclassified.1
  · rw [UnmapWorld.step_notify]
    exact hclassified.2 v

theorem UnmapsKept.step (h : UnmapsKept root history w) {call : UnmapCall} (hserved : ServedBy root w call) :
    UnmapsKept root (history ++ [(call, (UnmapWorld.step root w call).2)]) (UnmapWorld.step root w call).1 := by
  cases call with
  | record window sequence reason =>
    cases hcapacity : w.tracker.ensureCapacity window with
    | true =>
      have hkept := h.recorded hserved hcapacity
      dsimp only [UnmapWorld.step]
      rw [(record_ok hcapacity sequence reason).1]
      exact hkept
    | false =>
      dsimp only [UnmapWorld.step]
      rw [record_full hcapacity]
      refine h.idle (fun _ _ _ heq => ?_) (fun _ _ _ => UnmapCall.noConfusion) fun _ => rfl
      simp at heq
  | notify window sequence copy =>
    obtain ⟨e, a, b, -, hsequence, ⟨hab, ha, hb⟩, -, -, hqueue⟩ := h.notify hserved
    exact h.notified hab hsequence ha hb hqueue _
  | synthetic window eventWindow sequence fromConfigure => exact h.withdrawn window eventWindow sequence fromConfigure _
  | gravity window eventWindow sequence =>
    exact h.idle (fun _ _ _ heq => UnmapCall.noConfusion (congrArg Prod.fst heq)) (fun _ _ _ => UnmapCall.noConfusion)
      fun _ => rfl
  | destroy window => exact h.destroyed window _

end Kept

/-! ## Recognised once -/

/-- How a call is answered, given what came before it: the first copy of a notification reports its request's reason unless
the window was withdrawn meanwhile, the second is a duplicate and the request leaves the queue. -/
def Recognised (root : Nat) (history : List (UnmapCall × UnmapAnswer)) (w : UnmapWorld) (call : UnmapCall) : Prop :=
  match call with
  | .record window _ _ =>
    (UnmapWorld.step root w call).2 = .recorded (decide ((w.tracker.queueOf window).length ≠ maxPendingPerWindow))
  | .notify window sequence _ => ∃ reason since, RecordedIn history window sequence reason since ∧
    (copyCame window sequence .client since = false → copyCame window sequence .root since = false →
      (UnmapWorld.step root w call).2 =
        .classified (if withdrawalCame window since then .managerDuplicate else .managerOwned reason)) ∧
    (copyCame window sequence .client since = true ∨ copyCame window sequence .root since = true →
      (UnmapWorld.step root w call).2 = .classified .managerDuplicate ∧
        ∀ e ∈ (UnmapWorld.step root w call).1.tracker.queueOf window, e.fullSequence ≠ sequence)
  | .synthetic .. | .gravity .. => (UnmapWorld.step root w call).2 = .classified .external
  | .destroy _ => (UnmapWorld.step root w call).2 = .cleared

theorem UnmapsKept.recognised {root : Nat} {history : List (UnmapCall × UnmapAnswer)} {w : UnmapWorld}
    (h : UnmapsKept root history w) {call : UnmapCall} (hserved : ServedBy root w call) :
    Recognised root history w call := by
  cases call with
  | record window sequence reason =>
    have hbound := h.bounded window
    cases hcapacity : w.tracker.ensureCapacity window with
    | true =>
      dsimp only [Recognised, UnmapWorld.step]
      rw [(record_ok hcapacity sequence reason).1, decide_eq_true (Nat.ne_of_lt (ensureCapacity_iff.1 hcapacity))]
    | false =>
      have hfull : (w.tracker.queueOf window).length = maxPendingPerWindow := by
        have hnot := mt ensureCapacity_iff.2 (Bool.eq_false_iff.1 hcapacity)
        omega
      dsimp only [Recognised, UnmapWorld.step]
      rw [record_full hcapacity, decide_eq_false (not_not.2 hfull)]
  | notify window sequence copy =>
    obtain ⟨e, a, b, he, rfl, ⟨hab, ha, hb⟩, hsecond, hanswer, hqueue⟩ := h.notify hserved
    obtain ⟨since, hrecorded, hcopies, hemitted⟩ := h.told window e he
    rw [hcopies] at hsecond
    refine ⟨e.reason, since, hrecorded, fun hclient hparent => ?_, fun hcame => ⟨?_, fun f hf => ?_⟩⟩
    · rw [hanswer, hemitted]
      unfold settledBy
      rw [hclient, hparent, Bool.false_or, Bool.false_or]
    · rw [hanswer, hemitted]
      unfold settledBy
      rcases hcame with hcame | hcame
      · rw [hcame, Bool.true_or, Bool.true_or, if_pos rfl]
      · rw [hcame, Bool.or_true, Bool.true_or, if_pos rfl]
    · rw [hqueue window, if_pos rfl] at hf
      rcases mem_queueAfter.1 hf with hf | ⟨hcomplete, -⟩
      · exact fun heq => hf.elim (fun hf => ha f hf (congrArg lowSequence heq)) fun hf => hb f hf (congrArg lowSequence heq)
      · rw [hcopies, hsecond hcame] at hcomplete
        exact absurd hcomplete (by decide)
  | synthetic window eventWindow sequence fromConfigure | gravity window eventWindow sequence | destroy window => rfl

/-- Along every run whose requests have sequences of their own and whose notifications are those the server owes, each call
is answered as `Recognised` says: every unmap of the window manager is reported once. -/
theorem unmaps_recognised_once (root : Nat) {calls : List UnmapCall}
    (h : Along (ServedBy root) (UnmapWorld.step root) UnmapWorld.initial calls) :
    ∀ before call rest, calls = before ++ call :: rest →
      Recognised root (trace (UnmapWorld.step root) UnmapWorld.initial before)
        (after (UnmapWorld.step root) UnmapWorld.initial before) call := by
  rintro before call rest rfl
  obtain ⟨hbefore, hserved, -⟩ := along_append.1 h
  have hkept := trace_invariant_along (I := UnmapsKept root)
    (fun _ _ _ hserved hkept => hkept.step hserved) (unmapsKept_initial root) hbefore
  exact hkept.recognised hserved

instance (root : Nat) (w : UnmapWorld) : ∀ call, Decidable (ServedBy root w call)
  | .record .. => inferInstanceAs (Decidable (_ → _ ∧ _ ∧ _))
  | .notify .. => inferInstanceAs (Decidable (∃ r ∈ w.sent, _))
  | .synthetic .. | .gravity .. | .destroy _ => isTrue trivial

/-- Two requests of one window with a withdrawal between their notifications, and one of another window. -/
theorem unmaps_recognised_once_withdrawn :
    let calls : List UnmapCall := [.record 1 70000 .swallowDiscard, .record 1 70001 (.iconifyRetain 3),
      .notify 1 70001 .root, .record 2 70002 .swallowDiscard, .synthetic 1 1 5 false, .notify 1 70000 .client,
      .notify 2 70002 .client, .notify 1 70001 .client, .notify 1 70000 .root]
    Along (ServedBy 0) (UnmapWorld.step 0) UnmapWorld.initial calls ∧
      answers (UnmapWorld.step 0) UnmapWorld.initial calls =
        [.recorded true, .recorded true, .classified (.managerOwned (.iconifyRetain 3)), .recorded true,
          .classified .external, .classified .managerDuplicate, .classified (.managerOwned .swallowDiscard),
          .classified .managerDuplicate, .classified .managerDuplicate] ∧
      ∀ before call rest, calls = before ++ call :: rest →
        Recognised 0 (trace (UnmapWorld.step 0) UnmapWorld.initial before)
          (after (UnmapWorld.step 0) UnmapWorld.initial before) call := by
  intro calls
  have h : Along (ServedBy 0) (UnmapWorld.step 0) UnmapWorld.initial calls := by decide +kernel
  exact ⟨h, by decide +kernel, unmaps_recognised_once 0 h⟩

end Jwm
