/-
What `encode_with_shapes` keeps of its candidates: the longest prefix, in order of importance, that fits. The lengths and the reading
back of the JSON text are what is assumed of `serde_json`.
-/
import Jwm.Data.Recency
import Jwm.Wm.RestartSnapshot

namespace Jwm.Restart

open List Option Bool

/-! ## What is assumed of the JSON text -/

/-- The fractions in a snapshot are read back. -/
structure Snapshot.Kept (json : SerdeJson) (s : Snapshot) : Prop where
  clients : ∀ client ∈ s.clients, json.Keeps32 client.clientFact
  tags : ∀ monitor ∈ s.monitors, ∀ tag ∈ monitor.tags, json.Keeps32 tag.mFact
  anchors : ∀ monitor ∈ s.monitors, ∀ shape ∈ monitor.shapes, ∀ anchor ∈ shape.resize,
    json.Keeps64 anchor.width ∧ json.Keeps64 anchor.height
  columns : ∀ monitor ∈ s.monitors, ∀ shape ∈ monitor.shapes, ∀ scrolling ∈ shape.scrolling, ∀ column ∈ scrolling.columns,
    json.Keeps32 column.widthFactor

structure SerdeJson.Laws (json : SerdeJson) : Prop where
  /-- The length is additive over the elements of the array, which is left out while it is empty. -/
  length_push : ∀ (s : Snapshot) (index : Nat) (monitor : Monitor) (shape : ShapeContext), s.monitors[index]? = some monitor →
    (json.toVec (s.pushShape index shape)).length =
      (json.toVec s).length + ((json.shapeToVec shape).length + separatorCost (some monitor))
  /-- What is written is read back, as far as its fractions are. -/
  read : ∀ s : Snapshot, s.Kept json → json.fromSlice (json.toVec s) = some s

/-! ## The contexts a snapshot is to carry -/

/-- A context counts for its monitor, tag mask and layout. -/
def scopeOf (candidate : Candidate) : Nat × Nat × String := (candidate.1, candidate.2.tagMask, candidate.2.layout)

namespace Snapshot

def accepts (s : Snapshot) (candidate : Candidate) : Bool :=
  decide (candidate.1 < s.monitors.length) && candidate.2.validate (s.idsOn candidate.1)

def admissible (s : Snapshot) (candidates : List Candidate) : List Candidate :=
  (latest ((candidates.filter s.accepts).map fun candidate => (scopeOf candidate, candidate))).map Prod.snd

def withContexts (s : Snapshot) (contexts : List Candidate) : Snapshot :=
  { s with monitors := s.monitors.mapIdx fun index monitor =>
      { monitor with shapes := (contexts.filter (·.1 == index)).map Prod.snd } }

/-- As `prepare_restart_state` makes it. -/
def Plain (s : Snapshot) : Prop := ∀ monitor ∈ s.monitors, monitor.shapes = []

end Snapshot

variable {k : Nat} {retained : List (Nat × Nat)} {bytes : List Byte}

section

variable {json : SerdeJson} {s : Snapshot} {contexts candidates : List Candidate} {c : Candidate}

/-! ## The admissible candidates -/

open Snapshot

theorem admissible_scopes (s : Snapshot) (candidates : List Candidate) : (s.admissible candidates).map scopeOf =
      (latest ((candidates.filter s.accepts).map fun candidate => (scopeOf candidate, candidate))).map Prod.fst := by
  unfold admissible
  rw [List.map_map]
  refine map_congr_left fun e he => ?_
  obtain ⟨candidate, -, rfl⟩ := List.mem_map.1 ((latest_sublist _).subset he)
  rfl

theorem admissible_nodup (s : Snapshot) (candidates : List Candidate) : ((s.admissible candidates).map scopeOf).Nodup := by
  rw [admissible_scopes]
  exact latest_nodup _

theorem mem_admissible (h : c ∈ s.admissible candidates) : s.accepts c = true := by
  obtain ⟨e, he, rfl⟩ := List.mem_map.1 h
  obtain ⟨candidate, hcandidate, rfl⟩ := List.mem_map.1 ((latest_sublist _).subset he)
  exact (mem_filter.1 hcandidate).2

theorem admissible_append_singleton (s : Snapshot) (candidates : List Candidate) (c : Candidate) :
    s.admissible (candidates ++ [c]) =
      if s.accepts c = true ∧ scopeOf c ∉ (s.admissible candidates).map scopeOf then s.admissible candidates ++ [c]
      else s.admissible candidates := by
  have hscopes : scopeOf c ∈ (s.admissible candidates).map scopeOf ↔
      scopeOf c ∈ ((candidates.filter s.accepts).map fun candidate => (scopeOf candidate, candidate)).map Prod.fst := by
    rw [admissible_scopes]
    exact mem_latest_keys
  have happend : s.admissible (candidates ++ [c]) =
      (latest (((candidates ++ [c]).filter s.accepts).map fun candidate => (scopeOf candidate, candidate))).map Prod.snd := rfl
  rw [happend, filter_append, map_append]
  cases haccepts : s.accepts c with
  | false =>
    rw [filter_cons, haccepts, if_neg Bool.false_ne_true, filter_nil, map_nil, append_nil,
      if_neg (fun h => Bool.false_ne_true h.1)]
    rfl
  | true =>
    rw [filter_cons, haccepts, if_pos rfl, filter_nil, map_singleton, latest_append_singleton]
    by_cases hmem : scopeOf c ∈ (s.admissible candidates).map scopeOf
    · rw [if_pos (hscopes.1 hmem), if_neg (fun h => h.2 hmem)]
      rfl
    · rw [if_neg (fun h => hmem (hscopes.2 h)), if_pos ⟨rfl, hmem⟩, map_append, map_singleton]
      rfl

/-! ## Putting contexts in and taking them out -/

theorem withContexts_nil (h : s.Plain) : s.withContexts [] = s := by
  have hmonitors : (s.monitors.mapIdx fun index monitor =>
      { monitor with shapes := (([] : List Candidate).filter (·.1 == index)).map Prod.snd }) = s.monitors := by
    refine ext_getElem? fun index => ?_
    rw [getElem?_mapIdx]
    cases hindex : s.monitors[index]? with
    | none => rfl
    | some monitor =>
      have hplain := h monitor (mem_of_getElem? hindex)
      rw [map_some, filter_nil, map_nil, ← hplain]
  unfold withContexts
  rw [hmonitors]

section

variable (s : Snapshot) (contexts : List Candidate)

theorem withContexts_getElem? (index : Nat) : (s.withContexts contexts).monitors[index]? =
      s.monitors[index]?.map fun monitor => { monitor with shapes := (contexts.filter (·.1 == index)).map Prod.snd } :=
  getElem?_mapIdx ..

theorem pushShape_withContexts (c : Candidate) :
    (s.withContexts contexts).pushShape c.1 c.2 = s.withContexts (contexts ++ [c]) := by
  have hmonitors : (s.withContexts contexts).monitors.modify c.1 (fun monitor => { monitor with shapes := monitor.shapes ++ [c.2] }) =
      (s.withContexts (contexts ++ [c])).monitors := by
    refine ext_getElem? fun index => ?_
    rw [getElem?_modify, withContexts_getElem?, withContexts_getElem?, Option.map_eq_map, Option.map_map]
    congr 1
    funext monitor
    rw [filter_append, filter_cons, filter_nil, map_append]
    by_cases heq : c.1 = index
    · simp [heq]
    · simp [heq]
  exact congrArg (fun monitors => ({ s with monitors } : Snapshot)) hmonitors

theorem popShape_withContexts (c : Candidate) :
    (s.withContexts (contexts ++ [c])).popShape c.1 = s.withContexts contexts := by
  have hmonitors : (s.withContexts (contexts ++ [c])).monitors.modify c.1
      (fun monitor => { monitor with shapes := monitor.shapes.dropLast }) = (s.withContexts contexts).monitors := by
    refine ext_getElem? fun index => ?_
    rw [getElem?_modify, withContexts_getElem?, withContexts_getElem?, Option.map_eq_map, Option.map_map]
    congr 1
    funext monitor
    rw [filter_append, filter_cons, filter_nil, map_append]
    by_cases heq : c.1 = index
    · simp [heq]
    · simp [heq]
  exact congrArg (fun monitors => ({ s with monitors } : Snapshot)) hmonitors

end

/-! ## Validity -/

theorem all_mapIdx {α : Type} {l : List α} {f : Nat → α → Bool} :
    (l.mapIdx f).all id = true ↔ ∀ index a, l[index]? = some a → f index a = true := by
  rw [List.all_eq_true]
  constructor
  · intro h index a hindex
    refine h _ (mem_of_getElem? (i := index) ?_)
    rw [getElem?_mapIdx, hindex, map_some]
  · intro h b hb
    obtain ⟨index, hindex, rfl⟩ := mem_mapIdx.1 hb
    exact h index _ (getElem?_eq_getElem hindex)

theorem filter_from_eq (contexts : List Candidate) (offset : Nat) : (contexts.filter (offset ≤ ·.1)).length =
      (contexts.filter (·.1 == offset)).length + (contexts.filter (offset + 1 ≤ ·.1)).length := by
  induction contexts with
  | nil => rfl
  | cons c contexts ih =>
    rw [filter_cons, filter_cons, filter_cons]
    rcases Nat.lt_trichotomy c.1 offset with h | h | h
    · rw [if_neg (by simp; omega), if_neg (by simp; omega), if_neg (by simp; omega), ih]
    · rw [if_pos (by simp; omega), if_pos (by simp; omega), if_neg (by simp; omega), length_cons, length_cons, ih]
      omega
    · rw [if_pos (by simp; omega), if_neg (by simp; omega), if_pos (by simp; omega), length_cons, length_cons, ih]
      omega

theorem sum_contexts_le (contexts : List Candidate) : ∀ (monitors : List Monitor) (offset : Nat),
    (monitors.mapIdx fun index _ => (contexts.filter (·.1 == offset + index)).length).sum ≤ (contexts.filter (offset ≤ ·.1)).length
  | [], _ => Nat.zero_le _
  | _ :: monitors, offset => by
    have ih := sum_contexts_le contexts monitors (offset + 1)
    have hshift : (fun (index : Nat) (_ : Monitor) => (contexts.filter (·.1 == offset + (index + 1))).length) =
        fun index _ => (contexts.filter (·.1 == offset + 1 + index)).length := by
      funext index _
      rw [Nat.add_assoc, Nat.add_comm 1 index]
    rw [mapIdx_cons, sum_cons, hshift, filter_from_eq, Nat.add_zero]
    omega

theorem validateShapes_contexts (haccepts : ∀ c ∈ contexts, s.accepts c = true) (hscopes : (contexts.map scopeOf).Nodup)
    (index : Nat) : s.validateShapes index ((contexts.filter (·.1 == index)).map Prod.snd) = true := by
  have hmem : ∀ c ∈ contexts.filter (·.1 == index), c ∈ contexts ∧ c.1 = index := by
    intro c hc
    obtain ⟨hc, hindex⟩ := mem_filter.1 hc
    exact ⟨hc, beq_iff_eq.1 hindex⟩
  have hnodup : ((contexts.filter (·.1 == index)).map scopeOf).Nodup := (filter_sublist.map scopeOf).nodup hscopes
  have hsplit : (contexts.filter (·.1 == index)).map scopeOf =
      (((contexts.filter (·.1 == index)).map Prod.snd).map fun shape => (shape.tagMask, shape.layout)).map fun scope => (index, scope) := by
    rw [List.map_map, List.map_map]
    refine map_congr_left fun c hc => ?_
    unfold scopeOf
    rw [(hmem c hc).2]
    rfl
  rw [hsplit] at hnodup
  unfold validateShapes
  rw [and_eq_true, decide_eq_true_eq, List.all_eq_true]
  constructor
  · exact hnodup.of_map _
  · intro shape hshape
    obtain ⟨c, hc, rfl⟩ := List.mem_map.1 hshape
    obtain ⟨hmember, rfl⟩ := hmem c hc
    exact (and_eq_true_iff.1 (haccepts c hmember)).2

theorem validate_withContexts (hs : s.validate = true) (haccepts : ∀ c ∈ contexts, s.accepts c = true)
    (hscopes : (contexts.map scopeOf).Nodup) (hcount : contexts.length ≤ maxShapeContexts) :
    (s.withContexts contexts).validate = true := by
  have hlength : (s.withContexts contexts).monitors.length = s.monitors.length := length_mapIdx
  have hclients : (s.withContexts contexts).validateClient = s.validateClient := by
    funext client
    unfold validateClient
    rw [hlength]
    rfl
  have hsum : ((s.withContexts contexts).monitors.map (·.shapes.length)).sum ≤ maxShapeContexts := by
    have hall : (contexts.filter (0 ≤ ·.1)).length = contexts.length := by simp
    have hle := sum_contexts_le contexts s.monitors 0
    have hmap : (s.withContexts contexts).monitors.map (·.shapes.length) =
        s.monitors.mapIdx fun index _ => (contexts.filter (·.1 == 0 + index)).length := by
      refine ext_getElem? fun index => ?_
      rw [getElem?_map, withContexts_getElem?, getElem?_mapIdx, Option.map_map]
      congr 1
      funext monitor
      simp
    rw [hmap]
    omega
  unfold validate at hs ⊢
  simp only [and_eq_true, decide_eq_true_eq] at hs ⊢
  obtain ⟨⟨⟨⟨⟨⟨⟨hversion, hmonitors⟩, hnumber⟩, -⟩, hselected⟩, hids⟩, hvalid⟩, heach⟩ := hs
  rw [hlength, hclients]
  refine ⟨⟨⟨⟨⟨⟨⟨hversion, hmonitors⟩, hnumber⟩, hsum⟩, hselected⟩, hids⟩, hvalid⟩, ?_⟩
  rw [all_mapIdx] at heach ⊢
  intro index monitor hindex
  rw [withContexts_getElem?] at hindex
  obtain ⟨before, hbefore, rfl⟩ := map_eq_some_iff.1 hindex
  rw [and_eq_true]
  constructor
  · exact (and_eq_true_iff.1 (heach index before hbefore)).1
  · exact validateShapes_contexts haccepts hscopes index

/-! ## Sizes -/

def contextsSize (json : SerdeJson) (s : Snapshot) (contexts : List Candidate) : Nat := (json.toVec (s.withContexts contexts)).length

theorem contextsSize_append (hjson : json.Laws) (hc : c.1 < s.monitors.length) :
    contextsSize json s (contexts ++ [c]) =
      contextsSize json s contexts + ((json.shapeToVec c.2).length + separatorCost (s.withContexts contexts).monitors[c.1]?) := by
  have hmonitor := (withContexts_getElem? s contexts c.1).trans (congrArg _ (getElem?_eq_getElem hc))
  unfold contextsSize
  rw [← pushShape_withContexts, hjson.length_push _ _ _ c.2 hmonitor, hmonitor, map_some]

theorem accepts_lt (h : s.accepts c = true) : c.1 < s.monitors.length := of_decide_eq_true (and_eq_true_iff.1 h).1

theorem contextsSize_take_le (hjson : json.Laws) (haccepts : ∀ c ∈ contexts, s.accepts c = true) : ∀ {j : Nat},
    k ≤ j → contextsSize json s (contexts.take k) ≤ contextsSize json s (contexts.take j) := by
  intro j hj
  induction j, hj using Nat.le_induction with
  | base => exact Nat.le_refl _
  | succ j hj ih =>
    by_cases hlength : j < contexts.length
    · have hc := haccepts contexts[j] (getElem_mem hlength)
      rw [take_succ_eq_append_getElem hlength, contextsSize_append hjson (accepts_lt hc)]
      omega
    · have hall : contexts.take (j + 1) = contexts.take j := by
        rw [take_of_length_le (Nat.le_succ_of_le (Nat.not_lt.1 hlength)), take_of_length_le (Nat.not_lt.1 hlength)]
      rw [hall]
      exact ih

/-! ## The loops -/

/-- What is retained are the costs of the contexts, the last one first. -/
inductive Costs (json : SerdeJson) (s : Snapshot) : List Candidate → List (Nat × Nat) → Prop
  | nil : Costs json s [] []
  | snoc {contexts : List Candidate} {retained : List (Nat × Nat)} {c : Candidate} {cost : Nat} (h : Costs json s contexts retained)
      (hcost : contextsSize json s (contexts ++ [c]) = contextsSize json s contexts + cost) :
      Costs json s (contexts ++ [c]) ((c.1, cost) :: retained)

theorem Costs.length (h : Costs json s contexts retained) : retained.length = contexts.length := by
  induction h with
  | nil => rfl
  | snoc _ _ ih => rw [length_cons, length_append, length_singleton, ih]

theorem evict_spec (h : Costs json s contexts retained) (hbase : contextsSize json s [] ≤ maxRestartPropertyBytes) :
    ∃ k ≤ contexts.length, ∃ kept, evict (s.withContexts contexts) (contextsSize json s contexts) retained =
        .ok (s.withContexts (contexts.take k), contextsSize json s (contexts.take k), kept) ∧
      Costs json s (contexts.take k) kept ∧ contextsSize json s (contexts.take k) ≤ maxRestartPropertyBytes ∧
      (k < contexts.length → maxRestartPropertyBytes < contextsSize json s (contexts.take (k + 1))) := by
  induction h with
  | nil =>
    refine ⟨0, Nat.le_refl _, [], ?_, .nil, hbase, fun h => absurd h (Nat.lt_irrefl _)⟩
    rw [evict, if_neg (Nat.not_lt.2 hbase), take_zero]
  | @snoc contexts retained c cost h hcost ih =>
    by_cases hlarge : maxRestartPropertyBytes < contextsSize json s (contexts ++ [c])
    · obtain ⟨k, hk, kept, heq, hkept, hfits, hnext⟩ := ih
      have htake : ∀ j ≤ contexts.length, (contexts ++ [c]).take j = contexts.take j :=
        fun j hj => take_append_of_le_length hj
      have hsize : contextsSize json s (contexts ++ [c]) - cost = contextsSize json s contexts := by omega
      refine ⟨k, ?_, kept, ?_, ?_, ?_, ?_⟩
      · rw [length_append]
        omega
      · rw [evict, if_pos hlarge, popShape_withContexts, hsize, heq, htake k hk]
      · rw [htake k hk]
        exact hkept
      · rw [htake k hk]
        exact hfits
      · intro _
        rcases Nat.lt_or_eq_of_le hk with hlt | rfl
        · rw [htake (k + 1) hlt]
          exact hnext hlt
        · rw [take_of_length_le (by rw [length_append]; exact Nat.le_refl _)]
          exact hlarge
    · refine ⟨(contexts ++ [c]).length, Nat.le_refl _, (c.1, cost) :: retained, ?_, ?_, ?_, fun h => absurd h (Nat.lt_irrefl _)⟩
      · rw [evict, if_neg hlarge, take_length]
      · rw [take_length]
        exact .snoc h hcost
      · rw [take_length]
        exact Nat.not_lt.1 hlarge

/-- The locals of the first loop after some candidates. -/
structure Packed (json : SerdeJson) (s : Snapshot) (candidates : List Candidate) (p : Packing) : Prop where
  snapshot : p.snapshot = s.withContexts ((s.admissible candidates).take maxShapeContexts)
  size : p.size = contextsSize json s ((s.admissible candidates).take maxShapeContexts)
  scopes : ∀ scope, scope ∈ p.scopes ↔ scope ∈ (s.admissible candidates).map scopeOf
  retained : Costs json s ((s.admissible candidates).take maxShapeContexts) p.retained

theorem accepts_eq (s : Snapshot) (c : Candidate) :
    (((List.range s.monitors.length).map s.idsOn)[c.1]?.any c.2.validate) = s.accepts c := by
  unfold accepts
  rw [getElem?_map]
  by_cases hc : c.1 < s.monitors.length
  · rw [getElem?_range hc, decide_eq_true hc]
    rfl
  · rw [getElem?_eq_none (by rw [length_range]; omega), decide_eq_false hc]
    rfl

theorem Packed.addCandidate (hjson : json.Laws) {p : Packing} (h : Packed json s candidates p) (c : Candidate) :
    Packed json s (candidates ++ [c]) (p.addCandidate json ((List.range s.monitors.length).map s.idsOn) c) := by
  have hscopes : p.scopes.contains (scopeOf c) = true ↔ scopeOf c ∈ (s.admissible candidates).map scopeOf := by
    rw [contains_iff_mem, h.scopes]
  have hlength := h.retained.length
  have happend := admissible_append_singleton s candidates c
  unfold Packing.addCandidate
  dsimp only
  rw [accepts_eq]
  split
  · -- invalid, or not the first of its scope
    rename_i hskip
    rw [if_neg] at happend
    · constructor
      · rw [happend]
        exact h.snapshot
      · rw [happend]
        exact h.size
      · rw [happend]
        exact h.scopes
      · rw [happend]
        exact h.retained
    · rintro ⟨haccepts, hnew⟩
      rw [haccepts, Bool.not_true, Bool.false_or] at hskip
      exact hnew (hscopes.1 hskip)
  · rename_i hkeep
    have haccepts : s.accepts c = true := by
      by_contra hno
      exact hkeep (by rw [not_eq_true] at hno; rw [hno]; rfl)
    have hnew : scopeOf c ∉ (s.admissible candidates).map scopeOf := by
      intro hmem
      refine hkeep ?_
      rw [haccepts]
      exact hscopes.2 hmem
    rw [if_pos ⟨haccepts, hnew⟩] at happend
    have hmore : ∀ scope, scope ∈ scopeOf c :: p.scopes ↔ scope ∈ (s.admissible (candidates ++ [c])).map scopeOf := by
      intro scope
      rw [happend, map_append, map_singleton, mem_append, mem_singleton, mem_cons, h.scopes]
      exact or_comm
    split
    · -- no context is retained beyond the bound
      rename_i hfull
      have htake : (s.admissible (candidates ++ [c])).take maxShapeContexts = (s.admissible candidates).take maxShapeContexts := by
        rw [happend]
        refine take_append_of_le_length ?_
        rw [hfull, length_take] at hlength
        omega
      constructor
      · rw [htake]
        exact h.snapshot
      · rw [htake]
        exact h.size
      · exact hmore
      · rw [htake]
        exact h.retained
    · rename_i hroom
      have hshort : (s.admissible candidates).length < maxShapeContexts := by
        rw [hlength, length_take] at hroom
        omega
      have hall : (s.admissible candidates).take maxShapeContexts = s.admissible candidates := take_of_length_le (Nat.le_of_lt hshort)
      have htake : (s.admissible (candidates ++ [c])).take maxShapeContexts = s.admissible candidates ++ [c] := by
        rw [happend]
        refine take_of_length_le ?_
        rw [length_append]
        exact hshort
      obtain ⟨hsnapshot, hsize, -, hretained⟩ := h
      rw [hall] at hsnapshot hsize hretained
      have hcost := @contextsSize_append json s (s.admissible candidates) c hjson (accepts_lt haccepts)
      rw [← hsnapshot] at hcost
      constructor
      · rw [htake, hsnapshot]
        exact pushShape_withContexts s _ c
      · rw [htake, hcost, hsize]
      · exact hmore
      · rw [htake]
        exact .snoc hretained hcost

theorem packed_foldl (hjson : json.Laws) (hplain : s.Plain) (candidates : List Candidate) :
    Packed json s candidates (candidates.foldl (Packing.addCandidate json ((List.range s.monitors.length).map s.idsOn))
      { snapshot := s, size := (json.toVec s).length }) := by
  induction candidates using reverseRecOn with
  | nil =>
    constructor
    · exact (withContexts_nil hplain).symm
    · show (json.toVec s).length = (json.toVec (s.withContexts [])).length
      rw [withContexts_nil hplain]
    · exact fun scope => Iff.rfl
    · exact .nil
  | append_singleton candidates c ih =>
    rw [foldl_append]
    exact ih.addCandidate hjson c

/-! ## What is kept -/

theorem encode_eq_ok :
    s.encode json = .ok bytes ↔ s.validate = true ∧ (json.toVec s).length ≤ maxRestartPropertyBytes ∧ bytes = json.toVec s := by
  unfold encode
  constructor
  · intro h
    split at h
    · cases h
    · rename_i hvalid
      dsimp only at h
      split at h
      · cases h
      · rename_i hlength
        cases h
        exact ⟨by simpa using hvalid, Nat.not_lt.1 hlength, rfl⟩
  · rintro ⟨hvalid, hlength, rfl⟩
    rw [if_neg (by simp [hvalid])]
    exact if_neg (Nat.not_lt.2 hlength)

theorem decode_encode (hjson : json.Laws) (h : s.encode json = .ok bytes) (hkept : s.Kept json) :
    decode json bytes s.intent = some s := by
  obtain ⟨hvalid, hlength, rfl⟩ := encode_eq_ok.1 h
  unfold decode
  rw [if_neg (Nat.not_lt.2 hlength), hjson.read s hkept, filter_some, hvalid, beq_self_eq_true, Bool.and_self, if_pos rfl]

theorem encode_take (hs : s.validate = true) (candidates : List Candidate) (hk : k ≤ maxShapeContexts)
    (hfits : contextsSize json s ((s.admissible candidates).take k) ≤ maxRestartPropertyBytes) :
    (s.withContexts ((s.admissible candidates).take k)).encode json =
      .ok (json.toVec (s.withContexts ((s.admissible candidates).take k))) := by
  refine encode_eq_ok.2 ⟨?_, hfits, rfl⟩
  refine validate_withContexts hs (fun c hc => mem_admissible (mem_of_mem_take hc)) ?_ ?_
  · exact ((take_sublist _ _).map scopeOf).nodup (admissible_nodup s candidates)
  · rw [length_take]
    omega

theorem packShapes_spec (hjson : json.Laws) (hplain : s.Plain) (hbase : (json.toVec s).length ≤ maxRestartPropertyBytes)
    (candidates : List Candidate) :
    ∃ k ≤ (s.admissible candidates).length, ∃ kept, s.packShapes json (json.toVec s).length candidates =
        .ok (s.withContexts ((s.admissible candidates).take k), contextsSize json s ((s.admissible candidates).take k), kept) ∧
      Costs json s ((s.admissible candidates).take k) kept ∧ k ≤ maxShapeContexts ∧
      contextsSize json s ((s.admissible candidates).take k) ≤ maxRestartPropertyBytes ∧
      ∀ j, k < j → j ≤ (s.admissible candidates).length →
        maxShapeContexts < j ∨ maxRestartPropertyBytes < contextsSize json s ((s.admissible candidates).take j) := by
  have hpacked := packed_foldl hjson hplain candidates
  have hnone : contextsSize json s [] ≤ maxRestartPropertyBytes := by
    unfold contextsSize
    rw [withContexts_nil hplain]
    exact hbase
  obtain ⟨k, hk, kept, heq, hkept, hfits, hnext⟩ := evict_spec hpacked.retained hnone
  rw [length_take] at hk hnext
  have htake : ∀ j ≤ maxShapeContexts, ((s.admissible candidates).take maxShapeContexts).take j = (s.admissible candidates).take j := by
    intro j hj
    rw [take_take, Nat.min_eq_left hj]
  rw [htake k (by omega)] at heq hkept hfits
  refine ⟨k, by omega, kept, ?_, hkept, by omega, hfits, ?_⟩
  · unfold packShapes
    dsimp only
    rw [hpacked.size, hpacked.snapshot]
    exact heq
  · intro j hkj hj
    by_cases hmax : maxShapeContexts < j
    · exact .inl hmax
    · -- the prefix of one more context is too long already
      have hlarge := hnext (by omega)
      rw [htake (k + 1) (by omega)] at hlarge
      exact .inr (Nat.lt_of_lt_of_le hlarge (contextsSize_take_le hjson (fun c hc => mem_admissible hc) hkj))

end

/-- The bytes fit and decode; the contexts kept are the longest prefix of the valid ones, first in their scope, that fits. -/
theorem restart_shapes_fill_room (json : SerdeJson) (hjson : json.Laws) (s : Snapshot) (base : List Byte)
    (hbase : s.encode json = .ok base) (hplain : s.Plain) (candidates : List Candidate) :
    let all := s.admissible candidates
    ∃ bytes, ∃ k ≤ all.length, ∃ retained,
      s.encodeWithShapes json candidates = (.ok bytes, s.withContexts (all.take k)) ∧
      bytes.length ≤ maxRestartPropertyBytes ∧
      ((s.withContexts (all.take k)).Kept json → Snapshot.decode json bytes s.intent = some (s.withContexts (all.take k))) ∧
      s.packShapes json base.length candidates = .ok (s.withContexts (all.take k), bytes.length, retained) ∧
      k ≤ maxShapeContexts ∧
      ∀ j, k < j → j ≤ all.length →
        maxShapeContexts < j ∨ maxRestartPropertyBytes < (json.toVec (s.withContexts (all.take j))).length := by
  intro all
  obtain ⟨hvalid, hlength, rfl⟩ := encode_eq_ok.1 hbase
  obtain ⟨k, hk, kept, hpack, hcosts, hcount, hfits, hlongest⟩ := packShapes_spec hjson hplain hlength candidates
  have hencoded := encode_take hvalid candidates hcount hfits
  refine ⟨json.toVec (s.withContexts (all.take k)), k, hk, kept, ?_, hfits, ?_, hpack, hcount, hlongest⟩
  · unfold Snapshot.encodeWithShapes
    rw [hbase]
    dsimp only
    rw [hpack]
    dsimp only
    split
    · -- nothing is retained: the base is what is returned
      rename_i hempty
      have hnone : all.take k = [] := by
        rw [← length_eq_zero_iff, ← hcosts.length, List.isEmpty_iff.1 hempty, length_nil]
      rw [hnone, withContexts_nil hplain]
    · rw [hencoded]
  · intro hreads
    exact decode_encode hjson hencoded hreads

end Jwm.Restart
