/-
Maximize promotion keeps every window's slot. The abstract picture is a fixed resting order `tiles` with some of its members
out: the monitor list is the members still in, then the floating windows, then the members that are out, each with its
successor in the resting order as its anchor. Promote, un-promote and departure keep that picture.
-/
import Jwm.Wm.ClientStack
import Mathlib.Data.List.Perm.Subperm
import Mathlib.Data.List.TakeWhile

namespace Jwm

open List Option

/-! ## The picture -/

def TileAt (s : WMState) (mon : MonitorKey) (key : ClientKey) : Prop :=
  ∃ c, s.clients.get? key = some c ∧ c.mon = some mon ∧ c.state.isFloating = false

def FloatAt (s : WMState) (mon : MonitorKey) (key : ClientKey) : Prop :=
  ∃ c, s.clients.get? key = some c ∧ c.mon = some mon ∧ c.state.isFloating = true ∧
    c.state.maximizeRestoreTiled = false

def PromotedAt (s : WMState) (mon : MonitorKey) (key : ClientKey) (anchor : Option ClientKey) : Prop :=
  ∃ c, s.clients.get? key = some c ∧ c.mon = some mon ∧ c.state.isFloating = true ∧
    c.state.maximizeRestoreTiled = true ∧ c.state.maximizedAxes.any = true ∧ c.state.maximizeRestoreAnchor = anchor

/-- A monitor list of distinct keys: tiles, then floating clients none of which is promoted. -/
structure TilesThenFloats (s : WMState) (mon : MonitorKey) (tiles floats : List ClientKey) : Prop where
  list : s.monitorClients.get? mon = some (tiles ++ floats)
  nodup : (tiles ++ floats).Nodup
  tile : ∀ k ∈ tiles, TileAt s mon k
  float : ∀ k ∈ floats, FloatAt s mon k

/-- The resting order `tiles` with the members `out` promoted, in the order of the floating tail. -/
structure Resting (s : WMState) (mon : MonitorKey) (tiles floats out : List ClientKey) : Prop where
  list : s.monitorClients.get? mon = some (tiles.filter (· ∉ out) ++ floats ++ out)
  nodup : (tiles ++ floats).Nodup
  outNodup : out.Nodup
  outSub : ∀ k ∈ out, k ∈ tiles
  tile : ∀ k ∈ tiles, k ∉ out → TileAt s mon k
  float : ∀ k ∈ floats, FloatAt s mon k
  promoted : ∀ k ∈ out, PromotedAt s mon k (nextIn tiles k)

theorem TilesThenFloats.resting {s : WMState} {mon : MonitorKey} {tiles floats : List ClientKey}
    (h : TilesThenFloats s mon tiles floats) : Resting s mon tiles floats [] :=
  ⟨by simpa using h.list, h.nodup, nodup_nil, fun _ h => (by cases h), fun k hk _ => h.tile k hk, h.float,
    fun _ h => (by cases h)⟩

/-! ## One member more or less out -/

section Filter

variable {l r out out' : List ClientKey} {k : ClientKey}

theorem filter_out_of (hn : (l ++ k :: r).Nodup) (hmem : ∀ x, x ∈ out ↔ x ∈ out' ∨ x = k) :
    (l ++ k :: r).filter (· ∉ out) = l.filter (· ∉ out') ++ r.filter (· ∉ out') := by
  have hl := nodup_cons_not_mem_left hn
  have hr : k ∉ r := (nodup_cons.1 (nodup_append.1 hn).2.1).1
  have same : ∀ m : List ClientKey, k ∉ m → m.filter (· ∉ out) = m.filter (· ∉ out') := by
    intro m hm
    refine filter_congr fun x hx => ?_
    have hxk : x ≠ k := fun e => hm (e ▸ hx)
    simp [hmem, hxk]
  rw [filter_append, filter_cons_of_neg (by simp [hmem]), same l hl, same r hr]

theorem filter_in_of (hk : k ∉ out') :
    (l ++ k :: r).filter (· ∉ out') = l.filter (· ∉ out') ++ k :: r.filter (· ∉ out') := by
  rw [filter_append, filter_cons_of_pos (by simpa using hk)]

end Filter

namespace Resting

variable {s : WMState} {mon : MonitorKey} {tiles floats out : List ClientKey}

theorem tilesNodup (h : Resting s mon tiles floats out) : tiles.Nodup := (nodup_append.1 h.nodup).1

theorem not_float (h : Resting s mon tiles floats out) {k : ClientKey} (hk : k ∈ tiles) : k ∉ floats :=
  fun hf => (nodup_append.1 h.nodup).2.2 k hk k hf rfl

theorem mem_list (_ : Resting s mon tiles floats out) {k : ClientKey} (hk : k ∈ tiles) :
    k ∈ tiles.filter (· ∉ out) ++ floats ++ out := by
  by_cases ho : k ∈ out <;> simp [hk, ho]

theorem listNodup (h : Resting s mon tiles floats out) : (tiles.filter (· ∉ out) ++ floats ++ out).Nodup := by
  refine nodup_append.2 ⟨?_, h.outNodup, fun a ha b hb => ?_⟩
  · exact (List.Sublist.append filter_sublist (List.Sublist.refl floats)).nodup h.nodup
  · rintro rfl
    rcases mem_append.1 ha with ha | ha
    · exact absurd hb (by simpa using (mem_filter.1 ha).2)
    · exact h.not_float (h.outSub a hb) ha

theorem length_le (h : Resting s mon tiles floats out) {r l : List ClientKey} (e : tiles = l ++ r) :
    r.length ≤ (tiles.filter (· ∉ out) ++ floats ++ out).length := by
  have hsub : tiles ⊆ tiles.filter (· ∉ out) ++ floats ++ out := fun k hk => h.mem_list hk
  have := (subperm_of_subset h.tilesNodup hsub).length_le
  rw [e, length_append] at this
  rw [e]; omega

end Resting

/-! ## Following the anchors -/

/-- From the member after `k` on, the chain of anchors walks the resting order to the first member
that is still in. -/
theorem restingAnchorLoop_walk {s : WMState} {list tiles out : List ClientKey} {k : ClientKey} (hn : tiles.Nodup) :
    ∀ (r l : List ClientKey) (rounds : Nat), tiles = l ++ r → k ∉ r → (∀ x ∈ r, x ∈ list) →
      (∀ x ∈ r, x ∉ out → ∃ c, s.clients.get? x = some c ∧ c.state.isFloating = false) →
      (∀ x ∈ r, x ∈ out → ∃ c, s.clients.get? x = some c ∧ c.state.isFloating = true ∧
        c.state.maximizeRestoreTiled = true ∧ c.state.maximizeRestoreAnchor = nextIn tiles x) →
      r.length ≤ rounds → restingAnchorLoop s list k rounds r.head? = r.find? (· ∉ out)
  | [], _, 0, _, _, _, _, _, _ => rfl
  | [], _, _ + 1, _, _, _, _, _, _ => rfl
  | x :: r, l, rounds + 1, e, hk, hl, htile, hout, hr => by
    simp only [mem_cons, not_or] at hk
    have hx : (x != k && list.contains x) = true := by
      simpa using ⟨fun e => hk.1 e.symm, hl x (by simp)⟩
    rw [restingAnchorLoop, head?_cons, filter_some, if_pos hx]
    by_cases ho : x ∈ out
    · obtain ⟨c, hc, hf, ht, ha⟩ := hout x (by simp) ho
      have hnext : nextIn tiles x = r.head? := by
        rw [e, nextIn_append (nodup_cons_not_mem_left (e ▸ hn))]
      rw [find?_cons_of_neg (by simpa using ho)]
      simp only [hc, hf, ht, ha, hnext, Bool.not_true, Bool.false_eq_true, if_false]
      exact restingAnchorLoop_walk hn r (l ++ [x]) rounds (by simpa using e) hk.2
        (fun y hy => hl y (mem_cons_of_mem _ hy)) (fun y hy => htile y (mem_cons_of_mem _ hy))
        (fun y hy => hout y (mem_cons_of_mem _ hy)) (by simpa using hr)
    · obtain ⟨c, hc, hf⟩ := htile x (by simp) ho
      rw [find?_cons_of_pos (by simpa using ho)]
      simp [hc, hf]

/-- A member rests in front of the first member after it that is still in, whatever was done to
its own record. -/
theorem Resting.restingAnchor_eq {s s1 : WMState} {mon : MonitorKey} {tiles floats out l r : List ClientKey}
    {k : ClientKey} (h : Resting s mon tiles floats out) (e : tiles = l ++ k :: r)
    (hs : ∀ x, x ≠ k → s1.clients.get? x = s.clients.get? x) :
    restingAnchor s1 (tiles.filter (· ∉ out) ++ floats ++ out) k (nextIn tiles k) = r.find? (· ∉ out) := by
  have hn := h.tilesNodup
  have hkr : k ∉ r := by rw [e] at hn; exact (nodup_cons.1 (nodup_append.1 hn).2.1).1
  have e' : tiles = (l ++ [k]) ++ r := by simpa using e
  have hr : ∀ x ∈ r, x ∈ tiles := fun x hx => by rw [e']; exact mem_append_right _ hx
  have hne : ∀ x ∈ r, s1.clients.get? x = s.clients.get? x := fun x hx => hs x fun ex => hkr (ex ▸ hx)
  have hnext : nextIn tiles k = r.head? := by
    rw [e, nextIn_append (nodup_cons_not_mem_left (e ▸ hn))]
  rw [restingAnchor, hnext]
  refine restingAnchorLoop_walk hn r (l ++ [k]) _ e' hkr (fun x hx => h.mem_list (hr x hx)) ?_ ?_ (h.length_le e')
  · intro x hx ho
    obtain ⟨c, hc, -, hf⟩ := h.tile x (hr x hx) ho
    exact ⟨c, (hne x hx).trans hc, hf⟩
  · intro x hx ho
    obtain ⟨c, hc, -, hf, ht, -, ha⟩ := h.promoted x ho
    exact ⟨c, (hne x hx).trans hc, hf, ht, ha⟩

/-! ## The anchor a promotion records -/

namespace Resting

variable {s : WMState} {mon : MonitorKey} {tiles floats out l r : List ClientKey} {k x : ClientKey}

section

variable (h : Resting s mon tiles floats out)
include h

theorem promotedAnchor_out (hx : x ∈ out) : promotedAnchor s x = some (nextIn tiles x) := by
  obtain ⟨c, hc, -, hf, ht, -, ha⟩ := h.promoted x hx
  simp [promotedAnchor, hc, ClientState.promoted, hf, ht, ha]

theorem promotedAnchor_in (hx : x ∈ tiles.filter (· ∉ out) ++ floats) : promotedAnchor s x = none := by
  rcases mem_append.1 hx with hx | hx
  · obtain ⟨ht, ho⟩ := mem_filter.1 hx
    obtain ⟨c, hc, -, hf⟩ := h.tile x ht (by simpa using ho)
    simp [promotedAnchor, hc, ClientState.promoted, hf]
  · obtain ⟨c, hc, -, -, ht⟩ := h.float x hx
    simp [promotedAnchor, hc, ClientState.promoted, ht]

/-- The members out that rest in front of the same tile as `k` would are those directly after it. -/
theorem rests_before (e : tiles = l ++ k :: r) (hk : k ∉ out) (hx : x ∈ out) :
    restingAnchor s (tiles.filter (· ∉ out) ++ floats ++ out) x (nextIn tiles x) = r.find? (· ∉ out) ↔
      x ∈ r.takeWhile (· ∈ out) := by
  have hn := h.tilesNodup
  have hxt := h.outSub x hx
  rw [e] at hn hxt
  obtain ⟨hl, hkr, hdis⟩ := nodup_append.1 hn
  rcases mem_append.1 hxt with hxl | hxr
  · -- `k` itself is a tile between `x` and `r`
    obtain ⟨l1, l2, rfl⟩ := append_of_mem hxl
    rw [h.restingAnchor_eq (l := l1) (r := l2 ++ k :: r) (by simpa using e) (fun _ _ => rfl)]
    have hout : x ∉ r.takeWhile (· ∈ out) := fun hm =>
      hdis x hxl x (mem_cons_of_mem _ ((takeWhile_sublist _).subset hm)) rfl
    refine iff_of_false (fun hf => ?_) hout
    obtain ⟨y, hy⟩ : ∃ y, (l2 ++ [k]).find? (· ∉ out) = some y := by
      rw [← isSome_iff_exists, find?_isSome]
      exact ⟨k, by simp, by simpa using hk⟩
    have hsplit : (l2 ++ k :: r).find? (· ∉ out) = some y := by
      rw [show l2 ++ k :: r = (l2 ++ [k]) ++ r by simp, find?_append, hy, some_or]
    rw [hsplit] at hf
    have hyr : y ∈ r := mem_of_find?_eq_some hf.symm
    rcases mem_append.1 (mem_of_find?_eq_some hy) with hy2 | hyk
    · exact hdis y (by simp [hy2]) y (mem_cons_of_mem _ hyr) rfl
    · rw [mem_singleton] at hyk
      exact (nodup_cons.1 hkr).1 (hyk ▸ hyr)
  · have hxr : x ∈ r := (mem_cons.1 hxr).resolve_left fun ex => hk (ex ▸ hx)
    obtain ⟨r1, r2, rfl⟩ := append_of_mem hxr
    rw [h.restingAnchor_eq (l := l ++ k :: r1) (r := r2) (by simpa using e) (fun _ _ => rfl)]
    have hr := (nodup_cons.1 hkr).2
    by_cases hall : ∀ y ∈ r1, y ∈ out
    · have h1 : r1.find? (· ∉ out) = none := by simpa using hall
      have h2 : r1.takeWhile (· ∈ out) = r1 := takeWhile_eq_self_iff.2 (by simpa using hall)
      refine iff_of_true ?_ ?_
      · rw [find?_append, h1, find?_cons_of_neg (by simpa using hx)]; rfl
      · rw [takeWhile_append, if_pos (by rw [h2]), takeWhile_cons_of_pos (by simpa using hx)]
        simp
    · push Not at hall
      obtain ⟨y, hy, hyo⟩ := hall
      obtain ⟨z, hz⟩ : ∃ z, r1.find? (· ∉ out) = some z := by
        rw [← isSome_iff_exists, find?_isSome]
        exact ⟨y, hy, by simpa using hyo⟩
      have hlen : (r1.takeWhile (· ∈ out)).length ≠ r1.length := fun hlen => by
        have := takeWhile_eq_self_iff.1 ((List.takeWhile_prefix (l := r1) (· ∈ out)).eq_of_length hlen)
        exact hyo (by simpa using this y hy)
      refine iff_of_false (fun hf => ?_) fun hm => ?_
      · rw [find?_append, hz, some_or] at hf
        exact (nodup_append.1 hr).2.2 z (mem_of_find?_eq_some hz) z
          (mem_cons_of_mem _ (mem_of_find?_eq_some hf)) rfl
      · rw [takeWhile_append, if_neg hlen] at hm
        exact (nodup_append.1 hr).2.2 x ((takeWhile_sublist _).subset hm) x (by simp) rfl

theorem mem_restingBeforeTile (e : tiles = l ++ k :: r) (hk : k ∉ out) :
    x ∈ restingBeforeTile s (tiles.filter (· ∉ out) ++ floats ++ out) k (r.find? (· ∉ out)) ↔
      x ∈ r.takeWhile (· ∈ out) := by
  unfold restingBeforeTile
  rw [mem_filter, Bool.and_eq_true]
  constructor
  · rintro ⟨hm, -, hx⟩
    rcases mem_append.1 hm with hin | ho
    · rw [h.promotedAnchor_in hin] at hx; cases hx
    · rw [h.promotedAnchor_out ho] at hx
      exact (h.rests_before e hk ho).1 (by simpa using hx)
  · intro hm
    have ho : x ∈ out := by simpa using mem_takeWhile_imp hm
    refine ⟨mem_append_right _ ho, ?_, ?_⟩
    · simpa using fun ex : x = k => hk (ex ▸ ho)
    · rw [h.promotedAnchor_out ho]
      simpa using (h.rests_before e hk ho).2 hm

end

theorem list_split (_ : Resting s mon tiles floats out) {l r : List ClientKey} (e : tiles = l ++ k :: r) (hk : k ∉ out) :
    tiles.filter (· ∉ out) ++ floats ++ out =
      l.filter (· ∉ out) ++ k :: (r.filter (· ∉ out) ++ (floats ++ out)) := by
  rw [e, filter_in_of hk]
  simp

/-- The first tile listed behind a tile is the first member behind it that is in. -/
theorem find_tile_after (h : Resting s mon tiles floats out) {l r : List ClientKey} (e : tiles = l ++ k :: r) (hk : k ∉ out) :
    ((tiles.filter (· ∉ out) ++ floats ++ out).drop ((l.filter (· ∉ out)).length + 1)).find?
      (fun key => (s.clients.get? key).any (!·.state.isFloating)) = r.find? (· ∉ out) := by
  have hrest : (floats ++ out).find? (fun key => (s.clients.get? key).any (!·.state.isFloating)) = none := by
    rw [find?_eq_none]
    intro y hy
    rcases mem_append.1 hy with hy | hy
    · obtain ⟨c, hc, -, hf, -⟩ := h.float y hy
      simp [hc, hf]
    · obtain ⟨c, hc, -, hf, -⟩ := h.promoted y hy
      simp [hc, hf]
  have hin : (r.filter (· ∉ out)).find? (fun key => (s.clients.get? key).any (!·.state.isFloating)) =
      (r.filter (· ∉ out)).head? := by
    cases hr : r.filter (· ∉ out) with
    | nil => rfl
    | cons y ys =>
      have hy : y ∈ r.filter (· ∉ out) := by rw [hr]; simp
      obtain ⟨hyr, hyo⟩ := mem_filter.1 hy
      obtain ⟨c, hc, -, hf⟩ := h.tile y (by rw [e]; simp [hyr]) (by simpa using hyo)
      simp [hc, hf]
  rw [h.list_split e hk, drop_append, drop_eq_nil_of_le (by omega), nil_append,
    show (l.filter (· ∉ out)).length + 1 - (l.filter (· ∉ out)).length = 1 by omega, drop_one, tail_cons,
    find?_append, hrest, or_none, hin, head?_filter]

theorem restoreAnchorAfter_eq (h : Resting s mon tiles floats out) (ht : k ∈ tiles) (hk : k ∉ out) :
    restoreAnchorAfter s mon k = nextIn tiles k := by
  obtain ⟨l, r, e⟩ := append_of_mem ht
  have hn := h.tilesNodup
  have hkl : k ∉ l := nodup_cons_not_mem_left (e ▸ hn)
  have hpos : (tiles.filter (· ∉ out) ++ floats ++ out).idxOf? k = some (l.filter (· ∉ out)).length := by
    rw [h.list_split e hk, idxOf?_append_cons fun hm => hkl (mem_filter.1 hm).1]
  have hmem : ∀ y, y ∈ restingBeforeTile s (tiles.filter (· ∉ out) ++ floats ++ out) k (r.find? (· ∉ out)) ↔
      y ∈ r.takeWhile (· ∈ out) := fun y => h.mem_restingBeforeTile e hk
  have hnext : nextIn tiles k = r.head? := by rw [e, nextIn_append hkl]
  simp only [restoreAnchorAfter, h.list, hpos, h.find_tile_after e hk]
  cases hb : r.takeWhile (· ∈ out) with
  | nil =>
    -- nothing was promoted from between `k` and the next tile
    have hnil : restingBeforeTile s (tiles.filter (· ∉ out) ++ floats ++ out) k (r.find? (· ∉ out)) = [] :=
      eq_nil_iff_forall_not_mem.2 fun y hy => by have := (hmem y).1 hy; rw [hb] at this; cases this
    rw [hnil, hnext]
    cases r with
    | nil => rfl
    | cons y r =>
      have hy : y ∉ out := fun hy => by rw [takeWhile_cons_of_pos (by simpa using hy)] at hb; cases hb
      simp [hy]
  | cons y b =>
    -- `y`, the first of them, is the one the others do not name
    have hr : r.head? = some y := by
      cases r with
      | nil => cases hb
      | cons z r =>
        rw [takeWhile_cons] at hb
        split at hb
        · cases hb; rfl
        · cases hb
    have hseg : tiles = (l ++ [k]) ++ (y :: b) ++ r.dropWhile (· ∈ out) := by
      rw [e, ← hb]; simp
    have hout : ∀ z ∈ y :: b, z ∈ out := fun z hz => by
      rw [← hb] at hz; simpa using mem_takeWhile_imp hz
    rw [find?_unique (a := y) ((hmem y).2 (by simp [hb])), hnext, hr]
    · rfl
    · rw [Bool.not_eq_true', List.any_eq_false]
      intro z hz hzy
      have hzo : z ∈ out := hout z (hb ▸ (hmem z).1 hz)
      rw [h.promotedAnchor_out hzo] at hzy
      have hzk : z = k := nextIn_inj hn (by simpa using hzy) (hnext.trans hr)
      exact hk (hzk ▸ hzo)
    · intro z hz hzu
      by_contra hzy
      have hzb : z ∈ (y :: b).tail := (mem_cons.1 (hb ▸ (hmem z).1 hz)).resolve_left hzy
      obtain ⟨p, hp, hpz⟩ := exists_prev (hseg ▸ hn) hzb
      rw [← hseg] at hpz
      rw [Bool.not_eq_true', List.any_eq_false] at hzu
      refine hzu p ((hmem p).2 (hb ▸ hp)) ?_
      rw [h.promotedAnchor_out (hout p hp), hpz]
      simp

end Resting

end Jwm
