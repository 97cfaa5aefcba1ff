/-
What the placement steps of a session restore do to the windows: every window that has a plan goes to
its monitor, takes the tags, share and floating flag of its entry, and lines up in its group in the
order of the plans.
-/
import Jwm.Wm.HotplugRuns
import Jwm.Wm.Session

namespace Jwm

open List Option WMState

/-! ## Moving a window touches little else -/

section Sent

variable {α : Type} {f : WMClient → α} {s : WMState} {key : ClientKey} {target : MonitorKey}

theorem detach_map (hf : ∀ c a, f (setRestoreAnchor c a) = f c) (s : WMState) (key k : ClientKey) :
    ((detach s key).clients.get? k).map f = (s.clients.get? k).map f := by
  have spliced : ∀ mon, ((spliceRestoreAnchors s mon key).clients.get? k).map f = (s.clients.get? k).map f := by
    intro mon
    rw [(splice_spec s mon key).2 k]
    split
    · rfl
    · split
      · cases s.clients.get? k with
        | none => rfl
        | some c => exact congrArg some (hf c _)
      · rfl
  unfold detach
  split
  · rfl
  · simp only
    split
    · exact spliced _
    · split
      · exact spliced _
      · exact spliced _

theorem detachstack_clients (s : WMState) (key : ClientKey) : (detachstack s key).clients = s.clients := by
  unfold detachstack
  split <;> rfl

theorem attachstack_clients (s : WMState) (key : ClientKey) : (attachstack s key).clients = s.clients := by
  unfold attachstack
  split <;> rfl

theorem attachBack_clients (s : WMState) (key : ClientKey) : (attachBack s key).clients = s.clients := by
  unfold attachBack
  simp only
  rw [reorder_frame]
  split <;> rfl

theorem focusNone_clients (locked : MonitorKey → Bool) (ok : FocusOutcome) (s : WMState) :
    (focusNone locked ok s).clients = s.clients := by
  have set_clients : ∀ (s : WMState) k, (setClientFocusByKey s k).clients = s.clients := by
    intro s k
    unfold setClientFocusByKey
    split
    · rfl
    · rw [attachstack_clients, detachstack_clients]
  have update_clients : ∀ (s : WMState) k, (updateMonitorSelection s k).clients = s.clients := by
    intro s k
    unfold updateMonitorSelection
    split <;> rfl
  unfold focusNone
  simp only
  split
  · rfl
  · cases findVisibleClient locked s with
    | none =>
      simp only [map_none, getD_none]
      split
      · exact update_clients _ _
      · rfl
    | some k =>
      simp only [map_some, getD_some]
      split
      · exact (update_clients _ _).trans (set_clients _ _)
      · exact set_clients _ _

/-- A client that is sent changes its monitor, its tags and its rectangle; the others nothing but an
anchor. -/
theorem sendmon_map (hanchor : ∀ c a, f (setRestoreAnchor c a) = f c)
    (hsent : ∀ (c : WMClient) m tags g, f { c with mon := m, state := { c.state with tags := tags }, geometry := g } = f c)
    (locked : MonitorKey → Bool) (place : ClientGeometry → ClientGeometry) (ok : FocusOutcome) (s : WMState)
    (key : ClientKey) (target : MonitorKey) (k : ClientKey) :
    ((sendmon locked place ok s key target).clients.get? k).map f = (s.clients.get? k).map f := by
  have gone : ((detachstack (detach s key) key).clients.get? k).map f = (s.clients.get? k).map f := by
    rw [detachstack_clients]
    exact detach_map hanchor s key k
  have moved : ∀ (s' : WMState) tags, (s'.clients.get? k).map f = (s.clients.get? k).map f →
      ((focusNone locked ok (attachstack (attachBack (s'.modifyClient key fun client =>
        { client with
          mon := some target
          state := { client.state with tags := tags }
          geometry := place client.geometry }) key) key)).clients.get? k).map f = (s.clients.get? k).map f := by
    intro s' tags hs'
    rw [focusNone_clients, attachstack_clients, attachBack_clients, modifyClient_get?, ← hs']
    split
    · cases s'.clients.get? k with
      | none => rfl
      | some c => exact congrArg some (hsent c _ _ _)
    · rfl
  unfold sendmon
  split
  · split
    · rfl
    · simp only
      split
      · exact moved _ _ gone
      · exact moved _ _ gone
  · rfl

theorem sendmon_monOf {mon : WMMonitor} {c : WMClient} (htarget : s.monitors.get? target = some mon)
    (hc : s.clients.get? key = some c) (locked : MonitorKey → Bool) (place : ClientGeometry → ClientGeometry)
    (ok : FocusOutcome) (k : ClientKey) :
    (sendmon locked place ok s key target).monOf k = if k = key then some target else s.monOf k := by
  have gone : ∀ k, ((detachstack (detach s key) key).clients.get? k).map (·.mon) = (s.clients.get? k).map (·.mon) := by
    intro k
    rw [detachstack_clients]
    exact detach_map (fun _ _ => rfl) s key k
  have bind_map : ∀ (o : Option WMClient), o.bind (·.mon) = (o.map (·.mon)).bind id := by
    intro o
    cases o <;> rfl
  have moved : ∀ (s' : WMState) tags, (∀ k, (s'.clients.get? k).map (·.mon) = (s.clients.get? k).map (·.mon)) →
      (focusNone locked ok (attachstack (attachBack (s'.modifyClient key fun client =>
        { client with
          mon := some target
          state := { client.state with tags := tags }
          geometry := place client.geometry }) key) key)).monOf k = if k = key then some target else s.monOf k := by
    intro s' tags hs'
    unfold monOf
    rw [focusNone_clients, attachstack_clients, attachBack_clients, modifyClient_get?]
    split
    · rename_i e
      subst e
      have := hs' k
      rw [hc, map_some] at this
      obtain ⟨c', hc', -⟩ := map_eq_some_iff.1 this
      rw [hc']
      rfl
    · rw [bind_map, hs' k, ← bind_map]
  unfold sendmon
  simp only [htarget, hc]
  split
  · rename_i hmon
    split
    · rename_i e
      rw [e, monOf, hc]
      exact hmon
    · rfl
  · split
    · exact moved _ _ gone
    · exact moved _ _ gone

end Sent

/-! ## Every window on its monitor -/

/-- What a restore leaves of a client on its way: its names, its share and whether it floats. -/
def WMClient.card (c : WMClient) : SessionWindowIdentity × Float32 × Bool :=
  (c.identity, c.state.clientFact, c.state.isFloating)

variable {m : MonitorKey}

section Moved

variable {env : SessionEnv} {s s' : WMState}

theorem sessionMonitor_congr (h : SameFaces s s') (num : Nat) (connector : Option String) :
    sessionMonitor env s' num connector = sessionMonitor env s num connector := by
  have byFace : ∀ (s : WMState) monitor, ((s.monitors.get? monitor).any fun m =>
      u32TryFrom m.num == some (resolveSessionMonitorNum env num connector)) =
        (s.face monitor).any fun f => u32TryFrom f.1 == some (resolveSessionMonitorNum env num connector) := by
    intro s monitor
    unfold WMState.face
    cases s.monitors.get? monitor <;> rfl
  unfold sessionMonitor
  simp only [byFace, h.order, h.face]

theorem sessionMonitor_live {num : Nat} {connector : Option String}
    (h : sessionMonitor env s num connector = some m) : ∃ mon, s.monitors.get? m = some mon := by
  have hany := find?_some h
  cases hmon : s.monitors.get? m with
  | none => rw [hmon] at hany; cases hany
  | some mon => exact ⟨mon, rfl⟩

theorem moveToSavedMonitor_spec (h : Consistent s) {plan : ClientKey × SessionEntry} {target : MonitorKey}
    (hc : (s.clients.get? plan.1).isSome = true)
    (ht : sessionMonitor env s plan.2.monitorNum plan.2.connector = some target) :
    let r := moveToSavedMonitor env s plan
    Consistent r ∧ SameFaces s r ∧ (∀ k, (r.clients.get? k).map WMClient.card = (s.clients.get? k).map WMClient.card) ∧
      ∀ k, r.monOf k = if k = plan.1 then some target else s.monOf k := by
  intro r
  have hr : r = if s.monOf plan.1 = some target then s
      else sendmon (env.locked plan.1) (env.place plan.1) (env.focus plan.1) s plan.1 target := by
    show moveToSavedMonitor env s plan = _
    unfold moveToSavedMonitor
    rw [ht]
  obtain ⟨c, hc⟩ := isSome_iff_exists.1 hc
  obtain ⟨mon, hmon⟩ := sessionMonitor_live ht
  rw [hr]
  split
  · rename_i e
    refine ⟨h, .refl s, fun _ => rfl, fun k => ?_⟩
    split
    · rename_i ek
      rw [ek, e]
    · rfl
  · obtain ⟨hcons, -, hfaces, -⟩ := sendmon_spec h (env.locked plan.1) (env.place plan.1) (env.focus plan.1) plan.1 target
    exact ⟨hcons, hfaces, fun k => sendmon_map (fun _ _ => rfl) (fun _ _ _ _ => rfl) _ _ _ s plan.1 target k,
      fun k => sendmon_monOf hmon hc _ _ _ k⟩

theorem moved_spec : ∀ {plans : List (ClientKey × SessionEntry)} {s : WMState}, Consistent s →
    (plans.map (·.1)).Nodup → (∀ p ∈ plans, (s.clients.get? p.1).isSome = true ∧
      ∃ m, sessionMonitor env s p.2.monitorNum p.2.connector = some m) →
    let r := plans.foldl (moveToSavedMonitor env) s
    Consistent r ∧ SameFaces s r ∧ (∀ k, (r.clients.get? k).map WMClient.card = (s.clients.get? k).map WMClient.card) ∧
      (∀ p ∈ plans, r.monOf p.1 = sessionMonitor env s p.2.monitorNum p.2.connector) ∧
      ∀ k, k ∉ plans.map (·.1) → r.monOf k = s.monOf k
  | [], s, h, _, _ => ⟨h, .refl s, fun _ => rfl, fun p hp => (not_mem_nil hp).elim, fun _ _ => rfl⟩
  | plan :: plans, s, h, hnd, hall => by
    rw [map_cons, nodup_cons] at hnd
    obtain ⟨hc, target, ht⟩ := hall plan mem_cons_self
    obtain ⟨h1, hf1, hcard1, hmon1⟩ := moveToSavedMonitor_spec h hc ht
    have hpresent : ∀ k, ((moveToSavedMonitor env s plan).clients.get? k).isSome = (s.clients.get? k).isSome := by
      intro k
      have := congrArg isSome (hcard1 k)
      rwa [isSome_map, isSome_map] at this
    obtain ⟨h2, hf2, hcard2, hmon2, hother⟩ := moved_spec h1 hnd.2 (fun p hp => by
      obtain ⟨hc, hm⟩ := hall p (mem_cons_of_mem _ hp)
      rw [hpresent, sessionMonitor_congr hf1]
      exact ⟨hc, hm⟩)
    refine ⟨h2, hf1.trans hf2, fun k => (hcard2 k).trans (hcard1 k), fun p hp => ?_, fun k hk => ?_⟩
    · rcases mem_cons.1 hp with rfl | hp
      · exact (hother p.1 hnd.1).trans ((hmon1 p.1).trans ((if_pos rfl).trans ht.symm))
      · rw [foldl_cons, hmon2 p hp, sessionMonitor_congr hf1]
    · rw [map_cons, mem_cons, not_or] at hk
      rw [foldl_cons, hother k hk.2, hmon1 k, if_neg hk.1]

end Moved

/-! ## Every window in its group -/

/-- An entry that needs no correction under the tag mask. -/
structure SessionEntry.Legal (e : SessionEntry) (tagmask : BitVec 32) : Prop where
  masked : e.tags &&& tagmask = e.tags
  tagged : e.tags ≠ 0
  fact : sanitizeClientFact e.clientFact = e.clientFact

/-- The plans in `done` are carried out: their clients have what the entries say, and in every group of
every list they stand in the order of the plans. -/
structure LinedUp (s r : WMState) (done : List (ClientKey × SessionEntry)) : Prop where
  consistent : Consistent r
  faces : SameFaces s r
  mon : ∀ k, r.monOf k = s.monOf k
  names : ∀ k, (r.clients.get? k).map (·.identity) = (s.clients.get? k).map (·.identity)
  placed : ∀ p ∈ done, ∃ c, r.clients.get? p.1 = some c ∧ c.state.tags = p.2.tags ∧
    c.state.isFloating = p.2.isFloating ∧ c.state.clientFact = p.2.clientFact
  lists : ∀ m l, r.monitorClients.get? m = some l → ∀ b,
    l.filter (fun k => r.isClientFloating k == b && decide (k ∈ done.map (·.1))) =
      (done.filter fun p => decide (r.monOf p.1 = some m) && p.2.isFloating == b).map (·.1)

section Lined

variable {env : SessionEnv} {s r : WMState}

variable {l : List ClientKey}

theorem groupedBut_of_agree {f f' : ClientKey → Bool} {key : ClientKey} (hf : ∀ k, k ≠ key → f' k = f k)
    (h : Grouped f l) : GroupedBut f' [key] l := by
  refine List.Pairwise.imp ?_ h
  intro a b hab ha hb hfa
  rw [mem_singleton] at ha hb
  rw [hf a ha] at hfa
  rw [hf b hb]
  exact hab hfa

theorem grouped_erase_of_agree {f f' : ClientKey → Bool} {key : ClientKey} (hf : ∀ k, k ≠ key → f' k = f k)
    (hn : l.Nodup) (h : Grouped f l) : Grouped f' (l.erase key) := by
  refine List.Pairwise.imp_of_mem ?_ (List.Pairwise.sublist erase_sublist h)
  intro a b ha hb hab hfa
  rw [hf a (hn.mem_erase_iff.1 ha).1] at hfa
  rw [hf b (hn.mem_erase_iff.1 hb).1]
  exact hab hfa

theorem LinedUp.place (h : LinedUp s r done) {key : ClientKey} {e : SessionEntry} (hkey : key ∉ done.map (·.1))
    (hc : (r.clients.get? key).isSome = true) (he : e.Legal env.tagmask) :
    LinedUp s (placeClient env r (key, e)) (done ++ [(key, e)]) := by
  obtain ⟨c, hc⟩ := isSome_iff_exists.1 hc
  have htags : ∀ fallback, sanitizeTags e.tags env.tagmask fallback = e.tags := by
    intro fallback
    unfold sanitizeTags
    rw [he.masked, if_pos he.tagged]
  unfold placeClient
  simp only [htags, he.fact]
  generalize hg : (fun c : WMClient => { c with state := { c.state with
      tags := e.tags
      isFloating := e.isFloating
      isDragFloating := e.isFloating && e.isDragFloating
      clientFact := e.clientFact } }) = g
  have hgm : ∀ c, (g c).mon = c.mon := fun c => by rw [← hg]
  have hgi : ∀ c, (g c).identity = c.identity := fun c => by rw [← hg]; rfl
  have hget := modifyClient_get?_of hc g
  have h1 : Owned (r.modifyClient key g) := h.consistent.toOwned.modifyClient key hgm
  have hfloat : ∀ k, k ≠ key → (r.modifyClient key g).isClientFloating k = r.isClientFloating k := by
    intro k hk
    unfold isClientFloating
    rw [hget k, if_neg hk]
  have hfloatKey : (r.modifyClient key g).isClientFloating key = e.isFloating := by
    unfold isClientFloating
    rw [hget key, if_pos rfl, ← hg]
    rfl
  have hmon1 : ∀ k, (r.modifyClient key g).monOf k = r.monOf k := by
    intro k
    rw [monOf_modifyClient]
    split
    · rename_i ek
      rw [ek, hc, monOf, hc]
      exact hgm c
    · rfl
  have hlists := reorder_lists h1 key
  have hgroup : RegroupsBut (r.modifyClient key g) [key] :=
    fun m l hl => groupedBut_of_agree hfloat (h.consistent.grouped m l hl)
  have h2 := h1.reorder key
  have hg2 := RegroupsBut.reorder h1 hgroup
  have hfaces : SameFaces r (reorderClientInMonitorGroups (r.modifyClient key g) key) :=
    (SameFaces.modifyClient r key g).trans (.reorder _ key)
  have hclients : (reorderClientInMonitorGroups (r.modifyClient key g) key).clients = (r.modifyClient key g).clients := by
    rw [reorder_frame]
  generalize reorderClientInMonitorGroups (r.modifyClient key g) key = r' at hlists h2 hg2 hfaces hclients
  have hget' : ∀ k, r'.clients.get? k = if k = key then some (g c) else r.clients.get? k := by
    intro k
    rw [hclients]
    exact hget k
  have hfl' : r'.isClientFloating = (r.modifyClient key g).isClientFloating := by
    unfold isClientFloating
    rw [hclients]
  have hmon' : ∀ k, r'.monOf k = r.monOf k := by
    intro k
    rw [← hmon1 k, monOf, hclients]
    rfl
  refine ⟨⟨h2, hfaces.ordered h.consistent.order, fun m l hl => groupedBut_nil.1 (hg2 m l hl)⟩, h.faces.trans hfaces,
    fun k => (hmon' k).trans (h.mon k), fun k => ?_, fun p hp => ?_, fun m l hl b => ?_⟩
  · rw [← h.names k, hget' k]
    split
    · rename_i ek
      rw [ek, hc]
      exact congrArg some (hgi c)
    · rfl
  · rcases mem_append.1 hp with hp | hp
    · obtain ⟨c', hc', hrest⟩ := h.placed p hp
      refine ⟨c', ?_, hrest⟩
      rw [hget' p.1, if_neg (show p.1 ≠ key from fun ek => hkey (ek ▸ List.mem_map_of_mem hp)), hc']
    · cases mem_singleton.1 hp
      refine ⟨g c, by rw [hget' key, if_pos rfl], ?_⟩
      rw [← hg]
      exact ⟨rfl, rfl, rfl⟩
  · rw [hlists m] at hl
    obtain ⟨l0, hl0, rfl⟩ := map_eq_some_iff.1 hl
    have hl0 : r.monitorClients.get? m = some l0 := hl0
    have hn : l0.Nodup := h.consistent.lists.nodup m l0 hl0
    rw [hfl', hmon1 key, map_append, filter_append, map_append]
    have old := h.lists m l0 hl0 b
    rw [funext hmon', ← old]
    -- the other members of the list stand as they stood
    have others : ∀ x ∈ l0, x ≠ key → ((r.modifyClient key g).isClientFloating x == b &&
        decide (x ∈ done.map (·.1) ++ [(key, e)].map (·.1))) =
          (r.isClientFloating x == b && decide (x ∈ done.map (·.1))) := by
      intro x _ hx
      have hmem : x ∈ done.map (·.1) ++ [(key, e)].map (·.1) ↔ x ∈ done.map (·.1) := by
        rw [mem_append, map_singleton, mem_singleton, or_iff_left hx]
      rw [hfloat x hx, decide_eq_decide.2 hmem]
    by_cases hm : r.monOf key = some m
    · rw [if_pos hm]
      have herase := grouped_erase_of_agree hfloat hn (h.consistent.grouped m l0 hl0)
      have hback : key ∈ done.map (·.1) ++ [(key, e)].map (·.1) := by simp
      have hreg := congrArg (filter fun k => decide (k ∈ done.map (·.1) ++ [(key, e)].map (·.1)))
        (filter_regroup herase b)
      rw [List.filter_filter, filter_append, List.filter_filter] at hreg
      simp only [Bool.and_comm (decide (_ ∈ _))] at hreg
      rw [hreg]
      congr 1
      · rw [hn.erase_eq_filter, List.filter_filter]
        refine filter_congr fun x hx => ?_
        by_cases hxk : x = key
        · simp [hxk, hkey]
        · simp only [others x hx hxk, bne_iff_ne.2 hxk, Bool.and_true]
      · rw [hfloatKey]
        by_cases hb : e.isFloating = b
        · simp [hb, hm]
        · simp [hb]
    · rw [if_neg hm]
      have hnot : key ∉ l0 := h.consistent.toOwned.not_mem_list hl0 hm
      rw [filter_congr fun x hx => others x hx fun ex => hnot (ex ▸ hx)]
      simp [hm]

theorem linedUp_foldl : ∀ {plans done : List (ClientKey × SessionEntry)} {r : WMState}, LinedUp s r done →
    ((done ++ plans).map (·.1)).Nodup → (∀ p ∈ plans, (s.clients.get? p.1).isSome = true ∧ p.2.Legal env.tagmask) →
    LinedUp s (plans.foldl (placeClient env) r) (done ++ plans)
  | [], done, r, h, _, _ => by rw [append_nil]; exact h
  | plan :: plans, done, r, h, hnd, hall => by
    have hkey : plan.1 ∉ done.map (·.1) := by
      rw [map_append, nodup_append] at hnd
      exact fun hk => hnd.2.2 _ hk _ (List.mem_map_of_mem mem_cons_self) rfl
    obtain ⟨hc, he⟩ := hall plan mem_cons_self
    have hpresent : (r.clients.get? plan.1).isSome = true := by
      have := congrArg isSome (h.names plan.1)
      rw [isSome_map, isSome_map] at this
      rw [this, hc]
    have hstep := h.place hkey hpresent he
    rw [append_cons] at hnd ⊢
    exact linedUp_foldl hstep hnd fun p hp => hall p (mem_cons_of_mem _ hp)

theorem LinedUp.nil (h : Consistent s) : LinedUp s s [] where
  consistent := h
  faces := .refl s
  mon _ := rfl
  names _ := rfl
  placed _ hp := (not_mem_nil hp).elim
  lists m l _ b := by simp

/-- With a plan for every window, each list is the tiled windows, then the floating ones, each in the
order of the plans. -/
theorem LinedUp.list_eq {plans : List (ClientKey × SessionEntry)} (h : LinedUp s r plans) (hl : r.monitorClients.get? m = some l)
    (hall : ∀ k, (r.clients.get? k).isSome = true → k ∈ plans.map (·.1)) :
    l = (plans.filter fun p => decide (r.monOf p.1 = some m) && p.2.isFloating == false).map (·.1) ++
      (plans.filter fun p => decide (r.monOf p.1 = some m) && p.2.isFloating == true).map (·.1) := by
  have hmem : ∀ k ∈ l, k ∈ plans.map (·.1) := by
    intro k hk
    have hkm := ((h.consistent.lists.mem m l hl k).1 hk).2
    obtain ⟨c, hc, -⟩ := bind_eq_some_iff.1 hkm
    exact hall k (by rw [hc]; rfl)
  have drop : ∀ b, l.filter (fun k => r.isClientFloating k == b && decide (k ∈ plans.map (·.1))) =
      l.filter (fun k => r.isClientFloating k == b) := by
    intro b
    refine filter_congr fun k hk => ?_
    rw [decide_eq_true (hmem k hk), Bool.and_true]
  rw [← h.lists m l hl false, ← h.lists m l hl true, drop, drop]
  have hgroup := (h.consistent.grouped m l hl).eq_filter
  simpa using hgroup

end Lined

/-! ## The order of every list -/

section Reorder

variable {env : SessionEnv} {s : WMState}

/-- The list that takes the place of `keys`. -/
def reorderedList (env : SessionEnv) (s : WMState) (saved : SessionMonitorOrder) (keys : List ClientKey) : List ClientKey :=
  let current := keys.filterMap fun key => (s.clients.get? key).map fun c => (key, c.identity)
  if current.length ≠ keys.length then keys
  else
    let (heldBack, current) := current.partition fun entry => env.scratchpads.contains entry.1
    let planned := planOrderRestore saved.clients current ++ heldBack.map (·.1)
    planned.filter (!s.isClientFloating ·) ++ planned.filter s.isClientFloating

theorem restoreMonitorOrder_frame (env : SessionEnv) (s : WMState) (saved : SessionMonitorOrder) :
    restoreMonitorOrder env s saved = { s with monitorClients := (restoreMonitorOrder env s saved).monitorClients } := by
  unfold restoreMonitorOrder
  split
  · rfl
  · split
    · rfl
    · simp only
      split <;> rfl

theorem restoreMonitorOrder_get? (env : SessionEnv) (s : WMState) (saved : SessionMonitorOrder) (m : MonitorKey) :
    (restoreMonitorOrder env s saved).monitorClients.get? m =
      (s.monitorClients.get? m).map fun l =>
        if sessionMonitor env s saved.monitorNum saved.connector = some m then reorderedList env s saved l else l := by
  unfold restoreMonitorOrder reorderedList
  cases hmon : sessionMonitor env s saved.monitorNum saved.connector with
  | none =>
    have hne : ¬ (none : Option MonitorKey) = some m := fun e => by cases e
    simp only [if_neg hne, Option.map_id']
  | some monitor =>
    by_cases hm : m = monitor
    · subst hm
      cases hl : s.monitorClients.get? m with
      | none => simp [hl]
      | some l =>
        simp only [hl, if_true, map_some]
        split_ifs with hlen
        · exact hl
        · rw [setList_get?, if_pos rfl, hl]
          rfl
    · have hne : ¬ some monitor = some m := fun e => hm (some.inj e).symm
      simp only [if_neg hne, Option.map_id']
      split
      · rfl
      · split
        · rfl
        · rw [setList_get?, if_neg hm]

theorem restoreOrders_frame (env : SessionEnv) : ∀ (orders : List SessionMonitorOrder) (s : WMState),
    orders.foldl (restoreMonitorOrder env) s =
      { s with monitorClients := (orders.foldl (restoreMonitorOrder env) s).monitorClients }
  | [], _ => rfl
  | saved :: orders, s => by
    rw [foldl_cons, restoreOrders_frame env orders, restoreMonitorOrder_frame env s saved]

theorem reorderedList_frame (env : SessionEnv) (s : WMState) (lists : KeyMap MonitorKey (List ClientKey)) :
    reorderedList env { s with monitorClients := lists } = reorderedList env s := rfl

theorem sessionMonitor_frame (env : SessionEnv) (s : WMState) (lists : KeyMap MonitorKey (List ClientKey)) :
    sessionMonitor env { s with monitorClients := lists } = sessionMonitor env s := rfl

theorem restoreOrders_other : ∀ {orders : List SessionMonitorOrder} {s : WMState},
    (∀ saved ∈ orders, sessionMonitor env s saved.monitorNum saved.connector ≠ some m) →
    (orders.foldl (restoreMonitorOrder env) s).monitorClients.get? m = s.monitorClients.get? m
  | [], _, _ => rfl
  | saved :: orders, s, h => by
    have hrest : ∀ saved' ∈ orders, sessionMonitor env (restoreMonitorOrder env s saved) saved'.monitorNum
        saved'.connector ≠ some m := by
      intro saved' hmem
      rw [restoreMonitorOrder_frame, sessionMonitor_frame]
      exact h saved' (mem_cons_of_mem _ hmem)
    rw [foldl_cons, restoreOrders_other hrest, restoreMonitorOrder_get?]
    simp only [if_neg (h saved mem_cons_self), Option.map_id']

theorem restoreOrders_get? {before later : List SessionMonitorOrder} {saved : SessionMonitorOrder}
    (hsaved : sessionMonitor env s saved.monitorNum saved.connector = some m)
    (hbefore : ∀ o ∈ before, sessionMonitor env s o.monitorNum o.connector ≠ some m)
    (hlater : ∀ o ∈ later, sessionMonitor env s o.monitorNum o.connector ≠ some m) :
    ((before ++ saved :: later).foldl (restoreMonitorOrder env) s).monitorClients.get? m =
      (s.monitorClients.get? m).map (reorderedList env s saved) := by
  have hother := restoreOrders_other hbefore
  have hframe := restoreOrders_frame env before s
  rw [foldl_append, foldl_cons]
  generalize before.foldl (restoreMonitorOrder env) s = s1 at hother hframe
  have hsaved1 : sessionMonitor env s1 saved.monitorNum saved.connector = some m := by
    rw [hframe, sessionMonitor_frame, hsaved]
  rw [restoreOrders_other, restoreMonitorOrder_get?, hother]
  · simp only [if_pos hsaved1]
    rw [hframe, reorderedList_frame]
  · intro o ho
    rw [restoreMonitorOrder_frame, sessionMonitor_frame, hframe, sessionMonitor_frame]
    exact hlater o ho

theorem planOrderRestore_perm (saved : List SessionWindowIdentity) (current : List (ClientKey × SessionWindowIdentity)) :
    (planOrderRestore saved current).Perm (current.map (·.1)) := by
  have hp := (claimAll_perm (fun identity entry => SessionWindowIdentity.matches entry.2 identity) saved
    (current.map fun entry => (false, entry))).map (·.1)
  rw [unclaimed_free, map_append, List.map_map] at hp
  exact hp

theorem reorderedList_perm (env : SessionEnv) (s : WMState) (saved : SessionMonitorOrder) (keys : List ClientKey) :
    (reorderedList env s saved keys).Perm keys := by
  unfold reorderedList
  simp only
  split
  · exact .refl keys
  · rename_i hlen
    have hlen := not_not.1 hlen
    generalize hc : (keys.filterMap fun key => (s.clients.get? key).map fun c => (key, c.identity)) = current at hlen
    have hkeys : current.map (·.1) = keys := by
      rw [← hc, map_filterMap]
      have hsub : (keys.filterMap fun key => ((s.clients.get? key).map fun c => (key, c.identity)).map (·.1)).Sublist keys := by
        have : (fun key => ((s.clients.get? key).map fun c => (key, c.identity)).map (·.1)) =
            fun key => Option.guard (fun key => (s.clients.get? key).isSome) key := by
          funext key
          cases hk : s.clients.get? key <;> simp [Option.guard, hk]
        rw [this, filterMap_eq_filter]
        exact filter_sublist
      refine hsub.eq_of_length ?_
      rw [← map_filterMap, hc, length_map, hlen]
    rw [partition_eq_filter_filter]
    have hplanned : (planOrderRestore saved.clients (current.filter (not ∘ fun entry => env.scratchpads.contains entry.1)) ++
        (current.filter fun entry => env.scratchpads.contains entry.1).map (·.1)).Perm keys := by
      rw [← hkeys]
      refine ((planOrderRestore_perm _ _).append_right _).trans ?_
      rw [← map_append]
      exact (perm_append_comm.trans (filter_append_perm _ current)).map _
    refine List.Perm.trans ?_ hplanned
    refine perm_append_comm.trans ?_
    exact filter_append_perm _ _

theorem restoreOrders_perm (env : SessionEnv) : ∀ (orders : List SessionMonitorOrder) (s : WMState) (m : MonitorKey) l',
    (orders.foldl (restoreMonitorOrder env) s).monitorClients.get? m = some l' →
    ∃ l, s.monitorClients.get? m = some l ∧ l'.Perm l
  | [], s, m, l', h => ⟨l', h, .refl l'⟩
  | saved :: orders, s, m, l', h => by
    obtain ⟨l1, hl1, hp⟩ := restoreOrders_perm env orders _ m l' h
    rw [restoreMonitorOrder_get?] at hl1
    obtain ⟨l, hl, rfl⟩ := map_eq_some_iff.1 hl1
    refine ⟨l, hl, hp.trans ?_⟩
    split
    · exact reorderedList_perm env s saved l
    · exact .refl l

end Reorder

end Jwm
