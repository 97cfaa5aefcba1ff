/-
`restingOrder` computes the resting order in every reachable state, so it agrees with un-promoting
every promoted window in any order, and a departure deletes exactly the departing window from it.
-/
import Jwm.Wm.PromotionRuns

namespace Jwm

open List Option ClientState

/-! ## Placing the pending windows -/

section Place

variable {s : WMState} {mon : MonitorKey} {tiles floats out pending l r : List ClientKey} {k a : ClientKey}

/-- Placing a pending window before its successor, which is back in the order. -/
theorem Resting.place_before (h : Resting s mon tiles floats out) (e : tiles = l ++ k :: r) (hr : r.head? = some a)
    {pending' : List ClientKey} (hmem : ∀ x, x ∈ pending ↔ x ∈ pending' ∨ x = k) (hk : k ∉ pending')
    (ha : a ∉ pending) :
    placeBefore s out (tiles.filter (· ∉ pending) ++ floats) k (some a) = tiles.filter (· ∉ pending') ++ floats := by
  have hn := h.tilesNodup
  obtain ⟨r', rfl⟩ : ∃ r', r = a :: r' := by
    cases r with
    | nil => cases hr
    | cons x r => cases hr; exact ⟨r, rfl⟩
  have ha' : a ∉ pending' := fun hx => ha ((hmem a).2 (.inl hx))
  have hal : a ∉ l.filter (· ∉ pending') := fun hx =>
    (nodup_append.1 (e ▸ hn)).2.2 a (mem_filter.1 hx).1 a (by simp) rfl
  have horder : tiles.filter (· ∉ pending) ++ floats =
      l.filter (· ∉ pending') ++ a :: (r'.filter (· ∉ pending') ++ floats) := by
    rw [e, filter_out_of (e ▸ hn) hmem, filter_cons_of_pos (by simpa using ha')]
    simp
  unfold placeBefore
  simp only [horder, bind_some, idxOf?_append_cons hal, some_or, getD_some]
  rw [insertIdx_append_length, e, filter_in_of hk, filter_cons_of_pos (by simpa using ha')]
  simp

theorem Resting.place_last (h : Resting s mon tiles floats out) (e : tiles = l ++ [k])
    {pending' : List ClientKey} (hmem : ∀ x, x ∈ pending ↔ x ∈ pending' ∨ x = k) (hk : k ∉ pending') :
    placeBefore s out (tiles.filter (· ∉ pending) ++ floats) k none = tiles.filter (· ∉ pending') ++ floats := by
  have hn := h.tilesNodup
  have horder : tiles.filter (· ∉ pending) ++ floats = l.filter (· ∉ pending') ++ floats := by
    rw [e, filter_out_of (e ▸ hn) hmem]; simp
  unfold placeBefore
  simp only [horder, bind_none, none_or]
  rw [insert_boundary, e, filter_in_of hk]
  · simp
  · intro x hx
    have hxt : x ∈ tiles := by rw [e]; exact mem_append_left _ (mem_filter.1 hx).1
    by_cases ho : x ∈ out
    · simp [ho]
    · obtain ⟨c, hc, -, hf⟩ := h.tile x hxt ho
      simp [WMState.isClientFloating, hc, hf]
  · intro x hx
    have ho : x ∉ out := fun ho => h.not_float (h.outSub x ho) hx
    obtain ⟨c, hc, -, hf, -⟩ := h.float x hx
    simp [WMState.isClientFloating, hc, hf, ho]

/-- What one pass over the pending windows `p` leaves, `w` waiting already: what was placed is in
its slot, and whatever still waits has its successor pending. -/
structure PassOk (tiles floats w p : List ClientKey) (res : List ClientKey × List ClientKey) : Prop where
  sub : res.1.Sublist p
  order : res.2 = tiles.filter (· ∉ w ++ res.1) ++ floats
  waiting : ∀ x ∈ res.1, ∃ a, nextIn tiles x = some a ∧ a ∈ w ++ p

theorem Resting.pass_spec (h : Resting s mon tiles floats out) :
    ∀ (p w : List ClientKey), (w ++ p).Nodup → (∀ x ∈ w ++ p, x ∈ out) →
      PassOk tiles floats w p (restingPass s (tiles.filter (· ∉ out) ++ floats ++ out) out p
        (tiles.filter (· ∉ w ++ p) ++ floats))
  | [], w, _, _ => ⟨List.Sublist.refl _, rfl, fun _ hx => (by cases hx)⟩
  | k :: p, w, hnd, hout => by
    have hko : k ∈ out := hout k (by simp)
    have hn := h.tilesNodup
    obtain ⟨l, r, e⟩ := append_of_mem (h.outSub k hko)
    have hnext : nextIn tiles k = r.head? := by rw [e, nextIn_append (nodup_cons_not_mem_left (e ▸ hn))]
    obtain ⟨c, hc, -, -, -, -, hanchor⟩ := h.promoted k hko
    have hmem : ∀ x, x ∈ w ++ k :: p ↔ x ∈ w ++ p ∨ x = k := by
      intro x; simp only [mem_append, mem_cons]; tauto
    have hkp : k ∉ w ++ p := fun hx => by
      rw [nodup_append, nodup_cons] at hnd
      rcases mem_append.1 hx with hx | hx
      · exact hnd.2.2 k hx k (by simp) rfl
      · exact hnd.2.1.1 hx
    -- placing `k` leaves the rest of the pass with one window less pending
    have placed : ∀ target, placeBefore s out (tiles.filter (· ∉ w ++ k :: p) ++ floats) k target =
        tiles.filter (· ∉ w ++ p) ++ floats →
        PassOk tiles floats w (k :: p) (restingPass s (tiles.filter (· ∉ out) ++ floats ++ out) out p
          (placeBefore s out (tiles.filter (· ∉ w ++ k :: p) ++ floats) k target)) := by
      intro target ht
      rw [ht]
      have hnd' := (List.Sublist.append (List.Sublist.refl w) (sublist_cons_self k p)).nodup hnd
      obtain ⟨h1, h2, h3⟩ := h.pass_spec p w hnd' fun x hx => hout x ((hmem x).2 (.inl hx))
      refine ⟨h1.cons k, h2, fun x hx => ?_⟩
      obtain ⟨a, ha, hap⟩ := h3 x hx
      exact ⟨a, ha, (hmem a).2 (.inl hap)⟩
    have hrest := h.restingAnchor_eq e (fun _ _ => rfl)
    rw [restingPass]
    simp only [hc, bind_some, hanchor]
    cases hhead : r.head? with
    | none =>
      have hr : r = [] := head?_eq_none_iff.1 hhead
      subst hr
      rw [hnext, head?_nil, find?_nil] at hrest
      simp only [hnext, head?_nil, filter_none, hrest]
      exact placed none (h.place_last e hmem hkp)
    | some a =>
      have har : a ∈ r := mem_of_mem_head? hhead
      have hat : a ∈ tiles := by rw [e]; simp [har]
      have hak : (a != k) = true := by
        simpa using fun eq : a = k => (nodup_cons.1 (nodup_append.1 (e ▸ hn)).2.1).1 (eq ▸ har)
      rw [hnext, hhead, filter_some]
      by_cases hao : a ∈ out
      · rw [if_pos (by simp [hak, hao])]
        simp only
        by_cases hap : a ∈ w ++ k :: p
        · -- its anchor is still out: it waits
          have hnot : a ∉ tiles.filter (· ∉ w ++ k :: p) ++ floats := by
            rw [mem_append, mem_filter]
            rintro (⟨-, hx⟩ | hx)
            · exact absurd hap (by simpa using hx)
            · exact h.not_float hat hx
          rw [if_pos (by rw [Bool.not_eq_true', ← Bool.not_eq_true, contains_iff_mem]; exact hnot)]
          have e' : w ++ k :: p = (w ++ [k]) ++ p := by simp
          obtain ⟨h1, h2, h3⟩ := h.pass_spec p (w ++ [k]) (e' ▸ hnd) (e' ▸ hout)
          simp only [← e'] at h1 h2 h3
          refine ⟨h1.cons_cons k, by rw [h2]; simp, fun x hx => ?_⟩
          rcases mem_cons.1 hx with rfl | hx
          · exact ⟨a, hnext.trans hhead, hap⟩
          · exact h3 x hx
        · have hin : a ∈ tiles.filter (· ∉ w ++ k :: p) ++ floats :=
            mem_append_left _ (mem_filter.2 ⟨hat, by simpa using hap⟩)
          rw [if_neg (by rw [contains_iff_mem.2 hin]; simp)]
          exact placed (some a) (h.place_before e hhead hmem hkp hap)
      · rw [if_neg (by simp [hao])]
        simp only
        have hfind : r.find? (· ∉ out) = some a := by
          cases r with
          | nil => cases har
          | cons x r => cases hhead; rw [find?_cons_of_pos (by simpa using hao)]
        rw [hnext, hhead, hfind] at hrest
        rw [hrest]
        exact placed (some a) (h.place_before e hhead hmem hkp fun hx => hao (hout a hx))

/-- The loop puts every pending window back, and its cycle branch is never taken. -/
theorem Resting.loop_spec (h : Resting s mon tiles floats out) :
    ∀ (rounds : Nat) (pending : List ClientKey), pending.Nodup → (∀ x ∈ pending, x ∈ out) → pending.length ≤ rounds →
      restingLoop s (tiles.filter (· ∉ out) ++ floats ++ out) out rounds pending (tiles.filter (· ∉ pending) ++ floats) =
        tiles ++ floats
  | 0, pending, _, _, hlen => by
    have hp : pending = [] := length_eq_zero_iff.1 (by omega)
    subst hp
    simp [restingLoop]
  | rounds + 1, pending, hnd, hout, hlen => by
    rw [restingLoop]
    by_cases hp : pending = []
    · subst hp; simp
    · rw [if_neg (by simpa using hp)]
      obtain ⟨h1, h2, h3⟩ := h.pass_spec pending [] hnd hout
      simp only [nil_append] at h1 h2 h3
      have hlt : (restingPass s (tiles.filter (· ∉ out) ++ floats ++ out) out pending
          (tiles.filter (· ∉ pending) ++ floats)).1.length ≠ pending.length := by
        intro heq
        rw [h1.eq_of_length heq] at h3
        obtain ⟨k, hk, hlast⟩ := exists_last h.tilesNodup (fun x hx => h.outSub x (hout x hx)) hp
        obtain ⟨a, ha, hap⟩ := h3 k hk
        exact hlast a ha hap
      simp only [hlt, if_false]
      rw [h2]
      refine h.loop_spec rounds _ (h1.nodup hnd) (fun x hx => hout x (h1.subset hx)) ?_
      have := h1.length_le
      omega

end Place

/-! ## The resting order of a reachable state -/

section Order

variable {s s' : WMState} {mon : MonitorKey} {tiles floats out : List ClientKey}

theorem filter_list_out {p : ClientKey → Bool} (hin : ∀ x ∈ tiles, x ∉ out → p x = false) (hfl : ∀ x ∈ floats, p x = false)
    (hout : ∀ x ∈ out, p x = true) :
    (tiles.filter (· ∉ out) ++ floats ++ out).filter p = out ∧
      ((tiles.filter (· ∉ out) ++ floats ++ out).filter fun x => !p x) = tiles.filter (· ∉ out) ++ floats := by
  have h1 : ∀ x ∈ tiles.filter (· ∉ out) ++ floats, p x = false := by
    intro x hx
    rcases mem_append.1 hx with hx | hx
    · obtain ⟨ht, ho⟩ := mem_filter.1 hx
      exact hin x ht (by simpa using ho)
    · exact hfl x hx
  constructor
  · have hnil : (tiles.filter (· ∉ out) ++ floats).filter p = [] :=
      filter_eq_nil_iff.2 fun x hx => by simp [h1 x hx]
    rw [filter_append, hnil, filter_eq_self.2 hout, nil_append]
  · have hself : ((tiles.filter (· ∉ out) ++ floats).filter fun x => !p x) = tiles.filter (· ∉ out) ++ floats :=
      filter_eq_self.2 fun x hx => by simp [h1 x hx]
    have hnil : (out.filter fun x => !p x) = [] := filter_eq_nil_iff.2 fun x hx => by simp [hout x hx]
    rw [filter_append, hself, hnil, append_nil]

theorem Resting.restingOrder_eq (h : Resting s mon tiles floats out) :
    restingOrder s (tiles.filter (· ∉ out) ++ floats ++ out) = tiles ++ floats := by
  obtain ⟨h1, h2⟩ := filter_list_out (p := restingPromoted s)
    (fun x hx ho => by obtain ⟨c, hc, -, hf⟩ := h.tile x hx ho; simp [restingPromoted, hc, hf])
    (fun x hx => by obtain ⟨c, hc, -, -, ht⟩ := h.float x hx; simp [restingPromoted, hc, ht])
    (fun x hx => by obtain ⟨c, hc, -, hf, ht, ha, -⟩ := h.promoted x hx; simp [restingPromoted, hc, hf, ht, ha])
  unfold restingOrder
  simp only [h1, h2]
  exact h.loop_spec out.length out h.outNodup (fun _ hx => hx) (le_refl _)

/-- Un-promote the listed windows one after the other, each with its own exit plan. -/
def unpromoteAll (s : WMState) (exits : List (ClientKey × MaximizePlan × RestingSlot)) : WMState :=
  exits.foldl (fun s e => unpromote s e.1 e.2.1 e.2.2) s

theorem Resting.unpromoteAll : ∀ (exits : List (ClientKey × MaximizePlan × RestingSlot)) {s : WMState}
    {out : List ClientKey}, Resting s mon tiles floats out → (exits.map Prod.fst).Perm out →
    (∀ e ∈ exits, e.2.1.axes.any = false) → Resting (unpromoteAll s exits) mon tiles floats []
  | [], _, _, h, hp, _ => by
    rw [map_nil] at hp
    exact hp.nil_eq ▸ h
  | (k, plan, slot) :: exits, _, out, h, hp, hx => by
    rw [map_cons] at hp
    have hk : k ∈ out := hp.subset (by simp)
    have hp' : (exits.map Prod.fst).Perm (out.erase k) := by simpa using hp.erase k
    exact Resting.unpromoteAll exits (h.unpromote hk plan slot (hx (k, plan, slot) (by simp))) hp'
      fun e he => hx e (mem_cons_of_mem _ he)

/-- `restingOrder` agrees with the live re-tile: in every reachable state, un-promoting every listed promoted client, in any
order, leaves exactly the list it computes. -/
theorem restingOrder_eq_unpromoteAll (h0 : TilesThenFloats s mon tiles floats)
    (hr : Relation.ReflTransGen (PromotionStep mon) s s') {list : List ClientKey}
    (hl : s'.monitorClients.get? mon = some list) (exits : List (ClientKey × MaximizePlan × RestingSlot))
    (hp : (exits.map Prod.fst).Perm (list.filter fun k => (s'.clients.get? k).any (·.state.promoted)))
    (hx : ∀ e ∈ exits, e.2.1.axes.any = false) :
    (unpromoteAll s' exits).monitorClients.get? mon = some (restingOrder s' list) := by
  obtain ⟨out, h⟩ := h0.resting.run hr
  rw [h.list] at hl
  cases hl
  have hpro := (filter_list_out (p := fun k => (s'.clients.get? k).any (·.state.promoted))
    (fun x hx ho => by obtain ⟨c, hc, -, hf⟩ := h.tile x hx ho; simp [promoted, hc, hf])
    (fun x hx => by obtain ⟨c, hc, -, -, ht⟩ := h.float x hx; simp [promoted, hc, ht])
    (fun x hx => by obtain ⟨c, hc, -, hf, ht, -⟩ := h.promoted x hx; simp [promoted, hc, hf, ht])).1
  rw [hpro] at hp
  rw [h.restingOrder_eq, (Resting.unpromoteAll exits h hp hx).list]
  simp

end Order

/-- With `a` and `b` out, returning `b` first and `a` second gives the resting order. -/
theorem restingOrder_eq_unpromoteAll_sample :
    (unpromoteAll Sample.twoOut [(Sample.b, Sample.exit, .live), (Sample.a, Sample.exit, .live)]).monitorClients.get?
        Sample.mon = some (restingOrder Sample.twoOut [Sample.c, Sample.d, Sample.a, Sample.b]) ∧
      restingOrder Sample.twoOut [Sample.c, Sample.d, Sample.a, Sample.b] =
        [Sample.a, Sample.b, Sample.c, Sample.d] :=
  ⟨restingOrder_eq_unpromoteAll Sample.tilesThenFloats Sample.twoOut_run rfl
    _ (by decide) (by decide), by decide⟩

/-! ## Departures -/

section Departure

variable {s s' : WMState} {mon : MonitorKey} {tiles floats out : List ClientKey} {k : ClientKey}

theorem Resting.spliceSuccessor_eq (h : Resting s mon tiles floats out) (ht : k ∈ tiles) {c : WMClient}
    (hc : s.clients.get? k = some c) : spliceSuccessor s mon k c = nextIn tiles k := by
  unfold spliceSuccessor
  by_cases ho : k ∈ out
  · obtain ⟨d, hd, -, hf, htl, -, ha⟩ := h.promoted k ho
    rw [hc] at hd; cases hd
    simp [ClientState.promoted, hf, htl, ha]
  · obtain ⟨d, hd, -, hf⟩ := h.tile k ht ho
    rw [hc] at hd; cases hd
    simp [ClientState.promoted, hf, h.restoreAnchorAfter_eq ht ho]

/-- Splicing the anchors and taking `k` off the list removes it from the resting order. -/
theorem Resting.depart (h : Resting s mon tiles floats out) (ht : k ∈ tiles)
    (hl : s'.monitorClients.get? mon = some ((tiles.filter (· ∉ out) ++ floats ++ out).filter (· != k)))
    (hcl : s'.clients = (spliceRestoreAnchors s mon k).clients) :
    Resting s' mon (tiles.filter (· != k)) floats (out.filter (· != k)) := by
  obtain ⟨c, hc⟩ : ∃ c, s.clients.get? k = some c := by
    by_cases ho : k ∈ out
    · obtain ⟨c, hc, -⟩ := h.promoted k ho; exact ⟨c, hc⟩
    · obtain ⟨c, hc, -⟩ := h.tile k ht ho; exact ⟨c, hc⟩
  have hn := h.tilesNodup
  have hget : ∀ x, s'.clients.get? x = if x ∈ anchoredTo s mon k then
      (s.clients.get? x).map (setRestoreAnchor · ((nextIn tiles k).filter fun anchor => anchor != x))
      else s.clients.get? x := by
    intro x
    rw [hcl, (splice_spec s mon k).2 x, hc]
    simp only [h.spliceSuccessor_eq ht hc]
  -- what splicing leaves alone: every field but the anchor
  have keep : ∀ x d, s.clients.get? x = some d → ∃ a, s'.clients.get? x = some (setRestoreAnchor d a) := by
    intro x d hd
    rw [hget x, hd]
    split
    · exact ⟨_, rfl⟩
    · exact ⟨d.state.maximizeRestoreAnchor, rfl⟩
  have hlist : (tiles.filter (· ∉ out) ++ floats ++ out).filter (· != k) =
      (tiles.filter (· != k)).filter (· ∉ out.filter (· != k)) ++ floats ++ out.filter (· != k) := by
    have hfl : floats.filter (· != k) = floats :=
      filter_eq_self.2 fun x hx => by simpa using fun eq : x = k => h.not_float ht (eq ▸ hx)
    have htiles : (tiles.filter (· ∉ out)).filter (· != k) =
        (tiles.filter (· != k)).filter (· ∉ out.filter (· != k)) := by
      rw [List.filter_filter, List.filter_filter]
      refine filter_congr fun x _ => ?_
      by_cases hx : x = k
      · simp [hx]
      · simp [hx, Bool.and_comm]
    rw [filter_append, filter_append, hfl, htiles]
  refine ⟨hlist ▸ hl, ?_, h.outNodup.filter _, fun x hx => ?_, fun x hx ho => ?_, fun x hx => ?_, fun x hx => ?_⟩
  · exact (List.Sublist.append filter_sublist (List.Sublist.refl floats)).nodup h.nodup
  · obtain ⟨hx, hxk⟩ := mem_filter.1 hx
    exact mem_filter.2 ⟨h.outSub x hx, hxk⟩
  · obtain ⟨hxt, hxk⟩ := mem_filter.1 hx
    obtain ⟨d, hd, hm, hf⟩ := h.tile x hxt fun hx => ho (mem_filter.2 ⟨hx, hxk⟩)
    obtain ⟨a, ha⟩ := keep x d hd
    exact ⟨_, ha, hm, hf⟩
  · obtain ⟨d, hd, hm, hf, ht⟩ := h.float x hx
    obtain ⟨a, ha⟩ := keep x d hd
    exact ⟨_, ha, hm, hf, ht⟩
  · obtain ⟨hxo, hxk⟩ := mem_filter.1 hx
    have hxk : x ≠ k := by simpa using hxk
    obtain ⟨d, hd, hm, hf, htl, hax, ha⟩ := h.promoted x hxo
    have hanch : x ∈ anchoredTo s mon k ↔ nextIn tiles x = some k := by
      unfold anchoredTo
      rw [h.list, getD_some, mem_filter]
      simp [hxk, hd, ha, hxo]
    have hne : nextIn tiles x = some k → (nextIn tiles k).filter (fun anchor => anchor != x) = nextIn tiles k := by
      intro hx'
      have hasymm := nextIn_asymm hn (h.outSub x hxo) hx'
      cases hn' : nextIn tiles k with
      | none => rfl
      | some a =>
        rw [hn'] at hasymm
        rw [filter_some, if_pos (by simpa using fun eq : a = x => hasymm (by rw [eq]))]
    rw [nextIn_filter_ne hn hxk]
    split
    · rename_i hx'
      exact ⟨setRestoreAnchor d (nextIn tiles k), by rw [hget x, if_pos (hanch.2 hx'), hd, hne hx']; rfl,
        hm, hf, htl, hax, rfl⟩
    · rename_i hx'
      exact ⟨d, by rw [hget x, if_neg fun hx => hx' (hanch.1 hx), hd], hm, hf, htl, hax, ha⟩

/-- A departure preserves everyone else's slot: in every reachable state `detach` and `detachFromMonitor` leave a list whose
resting order is the previous one with that window deleted. -/
theorem departure_restingOrder (h0 : TilesThenFloats s mon tiles floats)
    (hr : Relation.ReflTransGen (PromotionStep mon) s s') {list : List ClientKey}
    (hl : s'.monitorClients.get? mon = some list) (hk : k ∈ list) {c : WMClient} (hc : s'.clients.get? k = some c)
    (hs : c.state.isFloating = false ∨ c.state.promoted = true) :
    (∃ list', (detach s' k).monitorClients.get? mon = some list' ∧
      restingOrder (detach s' k) list' = (restingOrder s' list).erase k) ∧
    ∃ list', (detachFromMonitor s' k mon).monitorClients.get? mon = some list' ∧
      restingOrder (detachFromMonitor s' k mon) list' = (restingOrder s' list).erase k := by
  obtain ⟨out, h⟩ := h0.resting.run hr
  rw [h.list] at hl
  cases hl
  have ht : k ∈ tiles := by
    rcases hs with hf | hp
    · exact (h.tile_of hk hc hf).1
    · exact h.outSub k ((h.promoted_iff hk hc).1 hp)
  have hm : c.mon = some mon := by
    by_cases ho : k ∈ out
    · obtain ⟨d, hd, hm, -⟩ := h.promoted k ho; rw [hc] at hd; cases hd; exact hm
    · obtain ⟨d, hd, hm, -⟩ := h.tile k ht ho; rw [hc] at hd; cases hd; exact hm
  have horder : (restingOrder s' (tiles.filter (· ∉ out) ++ floats ++ out)).erase k =
      tiles.filter (· != k) ++ floats := by
    rw [h.restingOrder_eq, erase_append_left _ ht, h.tilesNodup.erase_eq_filter]
  have hsplice : (spliceRestoreAnchors s' mon k).monitorClients = s'.monitorClients := by
    rw [(splice_spec s' mon k).1]
  rw [horder]
  have hL := h.list
  have hnd := h.listNodup
  have hkL := hk
  -- both operations splice, then take `k` off the list
  have done : ∀ s'', s''.clients = (spliceRestoreAnchors s' mon k).clients →
      s''.monitorClients.get? mon = some ((tiles.filter (· ∉ out) ++ floats ++ out).filter (· != k)) →
      ∃ list', s''.monitorClients.get? mon = some list' ∧ restingOrder s'' list' = tiles.filter (· != k) ++ floats := by
    intro s'' hcl hl
    have hd := h.depart ht hl hcl
    exact ⟨_, hd.list, hd.restingOrder_eq⟩
  generalize tiles.filter (· ∉ out) ++ floats ++ out = L at hL hnd hkL done
  have hmon : s'.monOf k = some mon := by simp [WMState.monOf, hc, hm]
  constructor
  · obtain ⟨pos, hp⟩ : ∃ pos, L.idxOf? k = some pos := by
      cases hp : L.idxOf? k with
      | none => exact absurd hkL (idxOf?_eq_none_iff.1 hp)
      | some pos => exact ⟨pos, rfl⟩
    have hdet : detach s' k = (spliceRestoreAnchors s' mon k).setList mon (L.filter (· != k)) := by
      simp only [detach, hmon, hsplice, hL, hp, eraseIdx_of_idxOf? hp, hnd.erase_eq_filter]
    rw [hdet]
    refine done _ rfl ?_
    rw [WMState.setList_get?, if_pos rfl, hsplice, hL]
    rfl
  · refine done _ rfl ?_
    show ((spliceRestoreAnchors s' mon k).monitorClients.modify mon _).get? mon = _
    rw [KeyMap.get?_modify, if_pos rfl, hsplice, hL]
    rfl

end Departure

/-- With `a` and `b` out, `a` anchored to `b` and `b` to `c`, the promoted `b` closes. -/
theorem departure_restingOrder_sample :
    (∃ list', (detach Sample.twoOut Sample.b).monitorClients.get? Sample.mon = some list' ∧
      restingOrder (detach Sample.twoOut Sample.b) list' =
        (restingOrder Sample.twoOut [Sample.c, Sample.d, Sample.a, Sample.b]).erase Sample.b) ∧
    ∃ list', (detachFromMonitor Sample.twoOut Sample.b Sample.mon).monitorClients.get? Sample.mon = some list' ∧
      restingOrder (detachFromMonitor Sample.twoOut Sample.b Sample.mon) list' =
        (restingOrder Sample.twoOut [Sample.c, Sample.d, Sample.a, Sample.b]).erase Sample.b :=
  departure_restingOrder Sample.tilesThenFloats Sample.twoOut_run rfl
    (by decide) rfl (.inr rfl)

end Jwm
