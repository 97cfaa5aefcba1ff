/-
The loops of `resting_order` as the source runs them, by index over the vector the inner one removes from: they end for
every table of anchors, and what they return is a permutation that moves promoted windows only.
-/
import Jwm.Wm.RestoreAnchor

namespace Jwm

open List

variable (s : WMState) (list promotedKeys : List ClientKey)

/-! ## The loops -/

/-- The inner loop: `index` moves past a window that waits, and a window that is placed leaves `pending`. -/
def restingSweep (index : Nat) (pending order : List ClientKey) : List ClientKey × List ClientKey :=
  if h : index < pending.length then
    let key := pending[index]
    let anchor := (s.clients.get? key).bind (·.state.maximizeRestoreAnchor)
    match anchor.filter fun anchor => anchor != key && promotedKeys.contains anchor with
    | some anchor =>
      if !order.contains anchor then restingSweep (index + 1) pending order
      else restingSweep index (pending.eraseIdx index) (placeBefore s promotedKeys order key (some anchor))
    | none =>
      restingSweep index (pending.eraseIdx index)
        (placeBefore s promotedKeys order key (restingAnchor s list key anchor))
  else (pending, order)
termination_by pending.length - index
decreasing_by
  · omega
  · rw [length_eraseIdx_of_lt h]
    omega
  · rw [length_eraseIdx_of_lt h]
    omega

variable {s list promotedKeys} {index : Nat} {key : ClientKey} {pending order : List ClientKey}

theorem take_eraseIdx_self {α : Type} {l : List α} {i : Nat} (h : i < l.length) :
    (l.eraseIdx i).take i = l.take i ∧ (l.eraseIdx i).drop i = l.drop (i + 1) := by
  have hlength : (l.take i).length = i := length_take_of_le (Nat.le_of_lt h)
  rw [eraseIdx_eq_take_drop_succ]
  exact ⟨take_left' hlength, drop_left' hlength⟩

/-- The inner loop by index is the pass over the windows from `index` on. -/
theorem restingSweep_eq (index : Nat) (pending order : List ClientKey) :
    restingSweep s list promotedKeys index pending order =
      (pending.take index ++ (restingPass s list promotedKeys (pending.drop index) order).1,
        (restingPass s list promotedKeys (pending.drop index) order).2) := by
  fun_induction restingSweep s list promotedKeys index pending order with
  | case1 index pending order h key anchor kept hkept hout ih =>
    rw [ih, drop_eq_getElem_cons h, restingPass]
    rw [hkept]
    dsimp only
    rw [if_pos hout, take_succ_eq_append_getElem h, append_assoc]
    rfl
  | case2 index pending order h key anchor kept hkept hin ih =>
    obtain ⟨htake, hdrop⟩ := take_eraseIdx_self h
    rw [ih, htake, hdrop, drop_eq_getElem_cons h, restingPass]
    rw [hkept]
    dsimp only
    rw [if_neg hin]
  | case3 index pending order h key anchor hnone ih =>
    obtain ⟨htake, hdrop⟩ := take_eraseIdx_self h
    rw [ih, htake, hdrop, drop_eq_getElem_cons h, restingPass]
    rw [hnone]
  | case4 index pending order h =>
    rw [drop_eq_nil_of_le (Nat.le_of_not_lt h), take_of_length_le (Nat.le_of_not_lt h), restingPass, append_nil]

theorem restingSweep_zero (pending order : List ClientKey) :
    restingSweep s list promotedKeys 0 pending order = restingPass s list promotedKeys pending order := by
  rw [restingSweep_eq, take_zero, nil_append, drop_zero]

/-! ## One pass -/

theorem restingPass_cons (key : ClientKey) (pending order : List ClientKey) :
    (∃ target, restingPass s list promotedKeys (key :: pending) order =
      restingPass s list promotedKeys pending (placeBefore s promotedKeys order key target)) ∨
    restingPass s list promotedKeys (key :: pending) order =
      (key :: (restingPass s list promotedKeys pending order).1, (restingPass s list promotedKeys pending order).2) := by
  rw [restingPass]
  split
  · split
    · exact .inr rfl
    · exact .inl ⟨_, rfl⟩
  · exact .inl ⟨_, rfl⟩

theorem placeBefore_split (order : List ClientKey) (key : ClientKey) (before : Option ClientKey) :
    ∃ l r, order = l ++ r ∧ placeBefore s promotedKeys order key before = l ++ key :: r := by
  have hindex : ((before.bind fun before => order.idxOf? before).or
      (order.findIdx? fun other => !promotedKeys.contains other && s.isClientFloating other)).getD order.length ≤ order.length := by
    cases hbefore : before.bind fun before => order.idxOf? before with
    | some i =>
      obtain ⟨b, -, hb⟩ := Option.bind_eq_some_iff.1 hbefore
      exact Nat.le_of_lt (findIdx?_eq_some_iff_getElem.1 hb).1
    | none =>
      rw [Option.none_or]
      cases hfloat : order.findIdx? fun other => !promotedKeys.contains other && s.isClientFloating other with
      | some i => exact Nat.le_of_lt (findIdx?_eq_some_iff_getElem.1 hfloat).1
      | none => exact Nat.le_refl _
  unfold placeBefore
  generalize ((before.bind fun before => order.idxOf? before).or
    (order.findIdx? fun other => !promotedKeys.contains other && s.isClientFloating other)).getD order.length = index at hindex
  exact ⟨order.take index, order.drop index, (take_append_drop index order).symm, insertIdx_eq_take_drop _ _ _ hindex⟩

theorem placeBefore_perm (order : List ClientKey) (key : ClientKey) (before : Option ClientKey) :
    (placeBefore s promotedKeys order key before).Perm (key :: order) := by
  obtain ⟨l, r, hsplit, hplace⟩ := @placeBefore_split s promotedKeys order key before
  rw [hplace, hsplit]
  exact perm_middle

theorem placeBefore_filter (p : ClientKey → Bool) {key : ClientKey} (hkey : p key = false) (order : List ClientKey)
    (before : Option ClientKey) : (placeBefore s promotedKeys order key before).filter p = order.filter p := by
  obtain ⟨l, r, hsplit, hplace⟩ := @placeBefore_split s promotedKeys order key before
  rw [hplace, hsplit, filter_append, filter_append, filter_cons_of_neg (by rw [hkey]; decide)]

/-- A pass places windows and leaves the rest pending; it moves no other window. -/
structure PassKeeps (pending order : List ClientKey) (res : List ClientKey × List ClientKey) : Prop where
  sub : res.1.Sublist pending
  perm : (res.1 ++ res.2).Perm (pending ++ order)
  others : ∀ p : ClientKey → Bool, (∀ key ∈ pending, p key = false) → res.2.filter p = order.filter p

theorem restingPass_keeps : ∀ (pending order : List ClientKey),
    PassKeeps pending order (restingPass s list promotedKeys pending order)
  | [], order => ⟨List.Sublist.refl _, List.Perm.refl _, fun _ _ => rfl⟩
  | key :: pending, order => by
    rcases @restingPass_cons s list promotedKeys key pending order with ⟨target, heq⟩ | heq
    · rw [heq]
      obtain ⟨hsub, hperm, hothers⟩ := restingPass_keeps pending (placeBefore s promotedKeys order key target)
      refine ⟨hsub.cons key, ?_, fun p hp => ?_⟩
      · exact hperm.trans (((placeBefore_perm order key target).append_left pending).trans perm_middle)
      · rw [hothers p fun k hk => hp k (mem_cons_of_mem _ hk), placeBefore_filter p (hp key mem_cons_self)]
    · rw [heq]
      obtain ⟨hsub, hperm, hothers⟩ := restingPass_keeps pending order
      exact ⟨hsub.cons_cons key, hperm.cons key, fun p hp => hothers p fun k hk => hp k (mem_cons_of_mem _ hk)⟩

theorem giveUp_keeps : ∀ (pending order : List ClientKey),
    (pending.foldl (fun order key => placeBefore s promotedKeys order key none) order).Perm (pending ++ order) ∧
      ∀ p : ClientKey → Bool, (∀ key ∈ pending, p key = false) →
        (pending.foldl (fun order key => placeBefore s promotedKeys order key none) order).filter p = order.filter p
  | [], order => ⟨List.Perm.refl _, fun _ _ => rfl⟩
  | key :: pending, order => by
    obtain ⟨hperm, hothers⟩ := giveUp_keeps pending (placeBefore s promotedKeys order key none)
    refine ⟨?_, fun p hp => ?_⟩
    · exact hperm.trans (((placeBefore_perm order key none).append_left pending).trans perm_middle)
    · rw [foldl_cons, hothers p fun k hk => hp k (mem_cons_of_mem _ hk), placeBefore_filter p (hp key mem_cons_self)]

/-! ## The whole loop -/

variable (s list promotedKeys) in
/-- The outer loop: every pass places a window, or gives up on the rest. -/
def restingWhile (pending order : List ClientKey) : List ClientKey :=
  if pending = [] then order
  else
    let pass := restingSweep s list promotedKeys 0 pending order
    if pass.1.length = pending.length then
      -- `take` leaves nothing pending
      restingWhile [] (pass.1.foldl (fun order key => placeBefore s promotedKeys order key none) pass.2)
    else restingWhile pass.1 pass.2
termination_by pending.length
decreasing_by
  · rename_i hempty _
    exact length_pos_iff.2 hempty
  · rename_i hlength
    dsimp only [pass] at hlength ⊢
    rw [restingSweep_zero] at hlength ⊢
    exact Nat.lt_of_le_of_ne (restingPass_keeps pending order).sub.length_le hlength

theorem restingWhile_nil (order : List ClientKey) : restingWhile s list promotedKeys [] order = order := by
  rw [restingWhile, if_pos rfl]

theorem restingLoop_eq_while : ∀ (rounds : Nat) (pending order : List ClientKey), pending.length ≤ rounds →
    restingLoop s list promotedKeys rounds pending order = restingWhile s list promotedKeys pending order
  | 0, pending, order, hlen => by
    rw [length_eq_zero_iff.1 (Nat.le_zero.1 hlen), restingWhile_nil, restingLoop]
  | rounds + 1, pending, order, hlen => by
    rw [restingLoop, restingWhile]
    by_cases hempty : pending = []
    · rw [if_pos (List.isEmpty_iff.2 hempty), if_pos hempty]
    · rw [if_neg (by rwa [List.isEmpty_iff]), if_neg hempty]
      dsimp only
      rw [restingSweep_zero]
      have hsub := (@restingPass_keeps s list promotedKeys pending order).sub.length_le
      split
      · rw [restingWhile_nil]
      · exact restingLoop_eq_while rounds _ _ (by omega)

theorem restingWhile_keeps (pending order : List ClientKey) :
    (restingWhile s list promotedKeys pending order).Perm (pending ++ order) ∧
      ∀ p : ClientKey → Bool, (∀ key ∈ pending, p key = false) →
        (restingWhile s list promotedKeys pending order).filter p = order.filter p := by
  fun_induction restingWhile s list promotedKeys pending order with
  | case1 order => exact ⟨List.Perm.refl _, fun _ _ => rfl⟩
  | case2 pending order hempty pass hstuck ih =>
    rw [show pass = restingPass s list promotedKeys pending order from restingSweep_zero pending order] at ih ⊢
    obtain ⟨hsub, hperm, hothers⟩ := @restingPass_keeps s list promotedKeys pending order
    obtain ⟨hgive, hgive'⟩ := @giveUp_keeps s promotedKeys (restingPass s list promotedKeys pending order).1
      (restingPass s list promotedKeys pending order).2
    rw [nil_append] at ih
    refine ⟨ih.1.trans (hgive.trans hperm), fun p hp => ?_⟩
    rw [ih.2 p nofun, hgive' p fun k hk => hp k (hsub.subset hk), hothers p hp]
  | case3 pending order hempty pass hplaced ih =>
    rw [show pass = restingPass s list promotedKeys pending order from restingSweep_zero pending order] at ih ⊢
    obtain ⟨hsub, hperm, hothers⟩ := @restingPass_keeps s list promotedKeys pending order
    refine ⟨ih.1.trans hperm, fun p hp => ?_⟩
    rw [ih.2 p fun k hk => hp k (hsub.subset hk), hothers p hp]

/-- `resting_order` by its loops. -/
def restingOrderByLoops (s : WMState) (list : List ClientKey) : List ClientKey :=
  let promotedKeys := list.filter (restingPromoted s)
  let order := list.filter fun key => !restingPromoted s key
  restingWhile s list promotedKeys promotedKeys order

/-- For every table of clients and anchors, the loops of `resting_order` end, and what they return has each key of the list
as often as the list, with the windows that are not promoted in their order. -/
theorem restingOrder_perm (s : WMState) (list : List ClientKey) :
    restingOrderByLoops s list = restingOrder s list ∧ (restingOrderByLoops s list).Perm list ∧
      (restingOrderByLoops s list).filter (fun key => !restingPromoted s key) = list.filter fun key => !restingPromoted s key := by
  obtain ⟨hperm, hothers⟩ := @restingWhile_keeps s list (list.filter (restingPromoted s)) (list.filter (restingPromoted s))
    (list.filter fun key => !restingPromoted s key)
  refine ⟨(restingLoop_eq_while _ _ _ (Nat.le_refl _)).symm, hperm.trans (filter_append_perm _ _), ?_⟩
  unfold restingOrderByLoops
  rw [hothers _ fun key hkey => by rw [(mem_filter.1 hkey).2]; rfl, List.filter_filter]
  exact filter_congr fun key _ => Bool.and_self _

end Jwm
