/-
What each call does to the history: which identifier it issues, which ones its events close, and that the records it
leaves are clean, distinct and few.
-/
import Jwm.Features.Notifications
import Mathlib.Data.List.Perm.Basic

namespace Jwm.Features

open NotificationCenter UInt32
open List

/-! ## Records as the history keeps them -/

structure KeptRecord (r : NotificationRecord) : Prop where
  app : Clean maxTextChars r.app.toList
  summary : Clean maxTextChars r.summary.toList
  body : Clean maxTextChars r.body.toList
  urgency : r.urgency ≤ 2
  count : r.actions.length ≤ maxActions
  actions : ∀ a ∈ r.actions, KeptAction a

theorem NotificationRequest.record_kept (request : NotificationRequest) (id : UInt32) (now : UInt64) (suppressed : Bool) :
    KeptRecord (request.record id now suppressed) where
  app := sanitize_clean _
  summary := sanitize_clean _
  body := sanitize_clean _
  urgency := Std.min_le_right
  count := (kept_sanitizeActions _).1
  actions := (kept_sanitizeActions _).2

theorem KeptRecord.restored {r : NotificationRecord} (h : KeptRecord r) : r.restored = r := by
  unfold NotificationRecord.restored
  rw [sanitize_of_clean h.app, sanitize_of_clean h.summary, sanitize_of_clean h.body,
    sanitizeActions_of_kept h.count h.actions, show min r.urgency 2 = r.urgency from if_pos h.urgency]

/-! ## A center between calls -/

structure Tidy (c : NotificationCenter) : Prop where
  sorted : c.ids.Pairwise (· < ·)
  le : ∀ id ∈ c.ids, id ≤ c.nextId
  ne_zero : ∀ id ∈ c.ids, id ≠ 0
  length : c.records.length ≤ maxHistory
  kept : ∀ r ∈ c.records, KeptRecord r
  evicted : c.evicted = []

variable {c : NotificationCenter}

theorem Tidy.nodup (h : Tidy c) : c.ids.Nodup := by
  refine h.sorted.imp ?_
  rintro a b hlt rfl
  exact Nat.lt_irrefl _ (lt_iff_toNat_lt.1 hlt)

theorem tidy_default : Tidy .default := ⟨List.Pairwise.nil, nofun, nofun, by decide, nofun, rfl⟩

theorem Tidy.sublist (h : Tidy c) {records : List NotificationRecord}
    (hsub : records.Sublist c.records) : Tidy { c with records } where
  sorted := h.sorted.sublist (hsub.map _)
  le id hid := h.le id ((hsub.map _).subset hid)
  ne_zero id hid := h.ne_zero id ((hsub.map _).subset hid)
  length := Nat.le_trans hsub.length_le h.length
  kept r hr := h.kept r (hsub.subset hr)
  evicted := h.evicted

/-! ## What a call does to the identifiers -/

def NotificationEffect.closedId : NotificationEffect → Option UInt32
  | .closed id _ => some id
  | _ => none

def closedIds (effects : List NotificationEffect) : List UInt32 := effects.filterMap NotificationEffect.closedId

theorem closedIds_append (effects effects' : List NotificationEffect) :
    closedIds (effects ++ effects') = closedIds effects ++ closedIds effects' := filterMap_append ..

theorem closedIds_map (ids : List UInt32) : closedIds (ids.map (.closed · .undefined)) = ids := by
  unfold closedIds
  rw [filterMap_map]
  exact filterMap_some

/-- Identifiers are issued or closed, and otherwise stay. -/
structure Flow (c c' : NotificationCenter) (effects : List NotificationEffect) (issued : List UInt32) : Prop where
  tidy : Tidy c'
  sublist : c'.ids.Sublist (c.ids ++ issued)
  perm : (closedIds effects ++ c'.ids).Perm (c.ids ++ issued)
  live : ∀ id ∈ issued, id ∈ c'.ids
  next : issued = [] ∧ c'.nextId = c.nextId ∨ issued = [c'.nextId] ∧ c'.nextId.toNat = c.nextId.toNat + 1

theorem Flow.same (h : Tidy c) {effects : List NotificationEffect} (heffects : closedIds effects = []) :
    Flow c c effects [] where
  tidy := h
  sublist := by rw [append_nil]
  perm := by rw [heffects, append_nil, nil_append]
  live := nofun
  next := .inl ⟨rfl, rfl⟩

namespace NotificationCenter

/-! ## Posting -/

theorem allocateFrom_fresh {held : List UInt32} {nextId : UInt32} (hwrap : nextId + 1 ≠ 0) (hfresh : nextId + 1 ∉ held) :
    ∀ {n : Nat}, 0 < n → allocateFrom held n nextId = some (nextId + 1)
  | n + 1, _ => by
    rw [allocateFrom, if_neg hwrap]
    exact if_neg hfresh

variable {id : UInt32}

theorem toNat_next (h : id.toNat + 1 < 2 ^ 32) : (id + 1).toNat = id.toNat + 1 := by
  rw [UInt32.toNat_add]
  exact Nat.mod_eq_of_lt h

variable {c : NotificationCenter}

theorem next_fresh (h : Tidy c) (hroom : c.nextId.toNat + 1 < 2 ^ 32) : c.nextId + 1 ∉ c.ids := by
  intro hmem
  have hle := le_iff_toNat_le.1 (h.le _ hmem)
  rw [toNat_next hroom] at hle
  omega

theorem next_ne_zero (h : id.toNat + 1 < 2 ^ 32) : id + 1 ≠ 0 := by
  intro hzero
  have hnat := congrArg UInt32.toNat hzero
  rw [toNat_next h] at hnat
  cases hnat

theorem allocateId_eq (h : Tidy c) (hroom : c.nextId.toNat + 1 < 2 ^ 32) : c.allocateId = some (c.nextId + 1) :=
  allocateFrom_fresh (next_ne_zero hroom) (next_fresh h hroom) (by decide)

theorem evictOldest_eq : ∀ (records : List NotificationRecord) (evicted : List UInt32),
    evictOldest records evicted = (records.drop (records.length - maxHistory),
      evicted ++ (records.take (records.length - maxHistory)).map NotificationRecord.id)
  | [], evicted => by
    rw [evictOldest, drop_nil, take_nil, map_nil, append_nil]
  | record :: records, evicted => by
    rw [evictOldest]
    split
    · rename_i hmany
      rw [length_cons] at hmany ⊢
      have hcount : records.length + 1 - maxHistory = (records.length - maxHistory) + 1 := by omega
      rw [evictOldest_eq, hcount, drop_succ_cons, take_succ_cons, map_cons, append_assoc, singleton_append]
    · rename_i hfew
      have hcount : (record :: records).length - maxHistory = 0 := by omega
      rw [hcount, drop_zero, take_zero, map_nil, append_nil]

theorem mem_ids_iff : id ∈ c.ids ↔ ∃ r ∈ c.records, r.id = id := mem_map

theorem modify_eq_map {records : List NotificationRecord} (hnodup : (records.map NotificationRecord.id).Nodup)
    {index : Nat} (hindex : records.findIdx? (fun r => r.id = id) = some index)
    (f : NotificationRecord → NotificationRecord) :
    records.modify index f = records.map fun r => if r.id = id then f r else r := by
  rw [findIdx?_eq_some_iff_getElem] at hindex
  obtain ⟨hlt, hid, -⟩ := hindex
  refine ext_getElem (by rw [length_modify, length_map]) fun i hi hi' => ?_
  rw [length_modify] at hi
  rw [getElem_modify, getElem_map]
  by_cases heq : index = i
  · subst heq
    rw [if_pos rfl, if_pos (of_decide_eq_true hid)]
  · have hne : records[i].id ≠ id := by
      intro hsame
      have hlt' : index < (records.map NotificationRecord.id).length := by rwa [length_map]
      have hi'' : i < (records.map NotificationRecord.id).length := by rwa [length_map]
      have hget : (records.map NotificationRecord.id)[index] = (records.map NotificationRecord.id)[i] := by
        rw [getElem_map, getElem_map, hsame]
        exact of_decide_eq_true hid
      exact heq (hnodup.getElem_inj_iff.1 hget)
    rw [if_neg heq, if_neg hne]

/-- A record in place of another: the history holds the same identifiers in the same order. -/
theorem ids_replaced (c : NotificationCenter) (id : UInt32) (request : NotificationRequest) (now : UInt64) (suppressed : Bool) :
    (c.records.map fun r => if r.id = id then request.record r.id now suppressed else r).map NotificationRecord.id =
      c.ids := by
  rw [map_map]
  refine map_congr_left fun r _ => ?_
  rw [Function.comp_apply]
  split <;> rfl

/-- What `push` does: replace in place, or append under the next identifier and drop the oldest. -/
theorem push_cases (h : Tidy c) (hroom : c.nextId.toNat + 1 < 2 ^ 32)
    (request : NotificationRequest) (now : UInt64) (suppressed : Bool) :
    (request.replacesId ∈ c.ids ∧ c.push request now suppressed =
      ({ c with records := c.records.map fun r =>
          if r.id = request.replacesId then request.record r.id now suppressed else r }, some request.replacesId)) ∨
    (request.replacesId ∉ c.ids ∧ ∃ records,
      records = c.records ++ [request.record (c.nextId + 1) now suppressed] ∧
      c.push request now suppressed =
        ({ records := records.drop (records.length - maxHistory), nextId := c.nextId + 1
           evicted := (records.take (records.length - maxHistory)).map NotificationRecord.id }, some (c.nextId + 1))) := by
  unfold push
  cases hfound : if request.replacesId = 0 then none else c.records.findIdx? fun r => r.id = request.replacesId with
  | some index =>
    split at hfound
    · cases hfound
    · refine .inl ⟨?_, ?_⟩
      · obtain ⟨hlt, hid, -⟩ := findIdx?_eq_some_iff_getElem.1 hfound
        exact mem_ids_iff.2 ⟨c.records[index], getElem_mem hlt, of_decide_eq_true hid⟩
      · dsimp only
        rw [modify_eq_map h.nodup hfound]
  | none =>
    refine .inr ⟨?_, _, rfl, ?_⟩
    · intro hmem
      obtain ⟨r, hr, hid⟩ := mem_ids_iff.1 hmem
      rw [if_neg (h.ne_zero _ hmem)] at hfound
      have hnone := findIdx?_eq_none_iff.1 hfound r hr
      rw [hid, decide_eq_false_iff_not] at hnone
      exact hnone rfl
    · rw [allocateId_eq h hroom]
      dsimp only
      rw [evictOldest_eq, h.evicted, nil_append]

end NotificationCenter

theorem Tidy.replaced (h : Tidy c) (id : UInt32) (request : NotificationRequest) (now : UInt64) (suppressed : Bool) :
    Tidy { c with records := c.records.map fun r => if r.id = id then request.record r.id now suppressed else r } := by
  have hids := ids_replaced c id request now suppressed
  refine ⟨?_, ?_, ?_, ?_, ?_, h.evicted⟩
  · show (List.map _ _).Pairwise _
    rw [hids]
    exact h.sorted
  · intro i hi
    change i ∈ List.map _ _ at hi
    rw [hids] at hi
    exact h.le i hi
  · intro i hi
    change i ∈ List.map _ _ at hi
    rw [hids] at hi
    exact h.ne_zero i hi
  · rw [length_map]
    exact h.length
  · intro r hr
    obtain ⟨r₀, hr₀, rfl⟩ := mem_map.1 hr
    split
    · exact request.record_kept _ _ _
    · exact h.kept r₀ hr₀

theorem Tidy.appended (h : Tidy c) (hroom : c.nextId.toNat + 1 < 2 ^ 32) {r : NotificationRecord}
    (hid : r.id = c.nextId + 1) (hr : KeptRecord r) :
    Tidy { records := (c.records ++ [r]).drop ((c.records ++ [r]).length - maxHistory), nextId := c.nextId + 1
           evicted := [] } := by
  have hsub := (drop_sublist ((c.records ++ [r]).length - maxHistory) (c.records ++ [r]))
  have hlast : ∀ i ∈ c.ids, i.toNat < (c.nextId + 1).toNat := by
    intro i hi
    have hle := le_iff_toNat_le.1 (h.le i hi)
    rw [toNat_next hroom]
    omega
  have hall : ((c.records ++ [r]).map NotificationRecord.id).Pairwise (· < ·) := by
    rw [map_append, pairwise_append]
    refine ⟨h.sorted, pairwise_singleton _ _, fun a ha b hb => ?_⟩
    rw [map_singleton, mem_singleton] at hb
    rw [hb, hid]
    exact lt_iff_toNat_lt.2 (hlast a ha)
  have hmem : ∀ i ∈ (c.records ++ [r]).map NotificationRecord.id, i ∈ c.ids ∨ i = c.nextId + 1 := by
    intro i hi
    rw [map_append, mem_append, map_singleton, mem_singleton, hid] at hi
    exact hi
  refine ⟨hall.sublist (hsub.map _), ?_, ?_, ?_, ?_, rfl⟩
  · intro i hi
    rcases hmem i ((hsub.map _).subset hi) with hi | rfl
    · exact le_iff_toNat_le.2 (Nat.le_of_lt (hlast i hi))
    · exact le_iff_toNat_le.2 (Nat.le_refl _)
  · intro i hi
    rcases hmem i ((hsub.map _).subset hi) with hi | rfl
    · exact h.ne_zero i hi
    · exact next_ne_zero hroom
  · rw [length_drop]
    omega
  · intro r' hr'
    rcases mem_append.1 (hsub.subset hr') with hr' | hr'
    · exact h.kept r' hr'
    · rw [mem_singleton.1 hr']
      exact hr

theorem closedIds_post (evicted : List UInt32) (quiet : Bool) (toast : ToastNotification) (id : UInt32)
    (payload : Option (String × String × String × UInt8)) :
    closedIds (evicted.map (.closed · .undefined) ++ (if quiet then [] else [.toast toast]) ++ [.posted id quiet payload]) =
      evicted := by
  rw [closedIds_append, closedIds_append, closedIds_map]
  cases quiet with
  | true | false => exact (append_nil _).trans (append_nil _)

/-- A post answers an identifier that is live: the replaced one, or a fresh one. -/
theorem flow_post (h : Tidy c) (hroom : c.nextId.toNat + 1 < 2 ^ 32)
    (request : NotificationRequest) (timeoutMs : UInt32) (now : UInt64) (quiet : Bool) :
    (request.replacesId ∈ c.ids ∧
      (postNotification c request timeoutMs now quiet).2.2 = some request.replacesId ∧
      (postNotification c request timeoutMs now quiet).1.records = (c.records.map fun r =>
        if r.id = request.replacesId then request.record r.id now quiet else r) ∧
      Flow c (postNotification c request timeoutMs now quiet).1 (postNotification c request timeoutMs now quiet).2.1 []) ∨
    (request.replacesId ∉ c.ids ∧
      (postNotification c request timeoutMs now quiet).2.2 = some (c.nextId + 1) ∧
      (postNotification c request timeoutMs now quiet).1.nextId = c.nextId + 1 ∧
      Flow c (postNotification c request timeoutMs now quiet).1 (postNotification c request timeoutMs now quiet).2.1
        [c.nextId + 1]) := by
  unfold postNotification
  rcases push_cases h hroom request now quiet with ⟨hmem, hpush⟩ | ⟨hmem, records, hrecords, hpush⟩
  · rw [hpush]
    have htidy := h.replaced request.replacesId request now quiet
    have hids := ids_replaced c request.replacesId request now quiet
    refine .inl ⟨hmem, rfl, rfl, ⟨⟨htidy.sorted, htidy.le, htidy.ne_zero, htidy.length, htidy.kept, rfl⟩, ?_, ?_, nofun,
      .inl ⟨rfl, rfl⟩⟩⟩
    · show (List.map _ _).Sublist _
      rw [append_nil]
      dsimp only [takeEvicted]
      rw [hids]
    · show (closedIds (c.evicted.map _ ++ _ ++ [_]) ++ List.map _ _).Perm _
      dsimp only [takeEvicted]
      rw [closedIds_post, h.evicted, hids, append_nil, nil_append]
  · rw [hpush]
    have htidy := h.appended hroom (r := request.record (c.nextId + 1) now quiet) rfl (request.record_kept _ _ _)
    rw [← hrecords] at htidy
    have hids : records.map NotificationRecord.id = c.ids ++ [c.nextId + 1] := by
      rw [hrecords, map_append]
      rfl
    have hlength : records.length - maxHistory < records.length := by
      rw [hrecords, length_append, length_singleton]
      have hpos : 0 < maxHistory := by decide
      omega
    refine .inr ⟨hmem, rfl, rfl, ⟨htidy, ?_, ?_, ?_, .inr ⟨rfl, toNat_next hroom⟩⟩⟩
    · rw [← hids]
      exact (drop_sublist _ _).map _
    · show (closedIds (List.map _ ((records.take _).map _) ++ _ ++ [_]) ++ (records.drop _).map _).Perm _
      rw [closedIds_post, ← map_append, take_append_drop, hids]
    · intro i hi
      rw [mem_singleton.1 hi]
      have hlast : (records.drop (records.length - maxHistory)).getLast? =
          some (request.record (c.nextId + 1) now quiet) := by
        rw [getLast?_drop, if_neg (by omega), hrecords, getLast?_append]
        rfl
      exact mem_map.2 ⟨_, mem_of_getLast? hlast, rfl⟩

/-! ## Closing, clearing and acting -/

theorem flow_close (h : Tidy c) (id : UInt32) (reason : CloseReason) :
    Flow c (closeNotification c id reason).1 (closeNotification c id reason).2.1 [] ∧
      (id ∈ c.ids → (closeNotification c id reason).2 = ([.closed id reason], true)) := by
  unfold closeNotification NotificationCenter.close
  cases hindex : c.records.findIdx? fun r => r.id = id with
  | none =>
    refine ⟨Flow.same h rfl, fun hmem => ?_⟩
    obtain ⟨r, hr, hid⟩ := mem_ids_iff.1 hmem
    have hnone := findIdx?_eq_none_iff.1 hindex r hr
    rw [hid, decide_eq_false_iff_not] at hnone
    exact absurd rfl hnone
  | some index =>
    obtain ⟨hlt, hid, -⟩ := findIdx?_eq_some_iff_getElem.1 hindex
    have hsub := eraseIdx_sublist c.records index
    refine ⟨⟨h.sublist hsub, ?_, ?_, nofun, .inl ⟨rfl, rfl⟩⟩, fun _ => rfl⟩
    · rw [append_nil]
      exact hsub.map _
    · have hperm := (getElem_cons_eraseIdx_perm hlt).map NotificationRecord.id
      rw [map_cons, of_decide_eq_true hid] at hperm
      rw [append_nil]
      exact hperm

theorem flow_clear (h : Tidy c) : Flow c (clearNotifications c).1 (clearNotifications c).2.1 [] := by
  refine ⟨h.sublist (nil_sublist _), nil_sublist _, ?_, nofun, .inl ⟨rfl, rfl⟩⟩
  show (closedIds (c.ids.reverse.map _) ++ []).Perm _
  rw [closedIds_map, append_nil, append_nil]
  exact reverse_perm _

/-- An action is reported for a key the record holds, and its notification then closed. -/
theorem flow_invoke (h : Tidy c) (id : UInt32) (action : String) :
    Flow c (invokeNotificationAction c id action).1 (invokeNotificationAction c id action).2.1 [] ∧
      ((invokeNotificationAction c id action).2.1 = [] ∨
        (∃ r ∈ c.records, r.id = id ∧ ∃ a ∈ r.actions, a.key = action) ∧
          (invokeNotificationAction c id action).2.1 = [.action id action, .closed id .dismissed]) := by
  unfold invokeNotificationAction
  obtain ⟨hflow, hclosed⟩ := flow_close h id .dismissed
  cases hget : c.get id with
  | none => exact ⟨Flow.same h rfl, .inl rfl⟩
  | some r =>
    have hmem : r ∈ c.records := mem_of_find?_eq_some hget
    have hid : r.id = id := by simpa using find?_some hget
    rw [Option.any_some]
    by_cases hoffered : (r.actions.any fun entry => entry.key = action) = true
    · rw [if_neg (by rw [hoffered]; decide)]
      have hcloses := hclosed (mem_ids_iff.2 ⟨r, hmem, hid⟩)
      generalize closeNotification c id .dismissed = closed at hflow hcloses ⊢
      obtain ⟨c', effects, found⟩ := closed
      cases hcloses
      refine ⟨⟨hflow.tidy, hflow.sublist, hflow.perm, nofun, hflow.next⟩, .inr ⟨⟨r, hmem, hid, ?_⟩, rfl⟩⟩
      simpa using hoffered
    · rw [if_pos (by rw [Bool.eq_false_iff.2 hoffered]; decide)]
      exact ⟨Flow.same h rfl, .inl rfl⟩

end Jwm.Features
