/-
The two planners of a display refresh (`jwm/monitor.rs`), both greedy. The first hands every output to one position, and
every monitor the output it stands for; the second gives every monitor an output with its rectangle.
-/
import Jwm.Wm.DisplayRefresh

namespace Jwm

open List Option

/-! ## Handing outputs to positions -/

variable {o : OutputId × Rect} {slot : OutputSlot} {r : Rect}

section

variable {outputs : List (OutputId × Rect)} {id : OutputId} {k : Nat}

theorem findIdx?_id (hids : (outputs.map (·.1)).Nodup) (hk : outputs[k]? = some o) : outputs.findIdx? (·.1 == o.1) = some k := by
  obtain ⟨hlt, rfl⟩ := List.getElem?_eq_some_iff.1 hk
  rw [findIdx?_eq_some_iff_getElem]
  refine ⟨hlt, beq_self_eq_true _, fun j hj hsame => ?_⟩
  have hmap : (outputs.map (·.1))[j]? = (outputs.map (·.1))[k]? := by
    rw [getElem?_map, getElem?_map, getElem?_eq_getElem (hj.trans hlt), getElem?_eq_getElem hlt, map_some,
      map_some, beq_iff_eq.1 hsame]
  have := (getElem?_inj (by rw [length_map]; omega) hids).1 hmap
  omega

theorem claimOutputs_length : ∀ (mapped : List (Option OutputId)) (claimed : List Nat),
    (claimOutputs outputs mapped claimed).1.length = mapped.length
  | [], _ => rfl
  | _ :: rest, _ => congrArg (· + 1) (claimOutputs_length rest _)

theorem claimOutputs_claims : ∀ (mapped : List (Option OutputId)) (claimed : List Nat), claimed.Nodup →
    (∀ k ∈ claimed, k < outputs.length) →
      (claimOutputs outputs mapped claimed).2.Perm ((claimOutputs outputs mapped claimed).1.filterMap (fun slot => slot) ++ claimed) ∧
        (claimOutputs outputs mapped claimed).2.Nodup ∧ ∀ k ∈ (claimOutputs outputs mapped claimed).2, k < outputs.length
  | [], claimed, hnodup, hlt => ⟨.refl _, hnodup, hlt⟩
  | mapped :: rest, claimed, hnodup, hlt => by
    unfold claimOutputs
    rcases hfound : (mapped.bind fun id => outputs.findIdx? (·.1 == id)).filter fun index => index ∉ claimed with _ | k
    · rw [hfound]
      exact claimOutputs_claims rest claimed hnodup hlt
    · rw [hfound]
      obtain ⟨hfind, hfree⟩ := filter_eq_some_iff.1 hfound
      obtain ⟨id, -, hfind⟩ := bind_eq_some_iff.1 hfind
      have hk : k < outputs.length := (findIdx?_eq_some_iff_getElem.1 hfind).1
      have hfree : k ∉ claimed := of_decide_eq_true hfree
      obtain ⟨hperm, hnodup', hlt'⟩ := claimOutputs_claims rest (k :: claimed) (nodup_cons.2 ⟨hfree, hnodup⟩) fun j hj => by
        rcases mem_cons.1 hj with rfl | hj
        · exact hk
        · exact hlt j hj
      refine ⟨?_, hnodup', hlt'⟩
      exact hperm.trans perm_middle

/-- A position whose output is still there gets it, unless an earlier one stands for the same output. -/
theorem claimOutputs_keeps (hids : (outputs.map (·.1)).Nodup) (ho : outputs[k]? = some o) :
    ∀ (mapped : List (Option OutputId)) (claimed : List Nat) (i : Nat), mapped[i]? = some (some o.1) → k ∉ claimed →
      (∀ j < i, mapped[j]? ≠ some (some o.1)) → (claimOutputs outputs mapped claimed).1[i]? = some (some k)
  | [], _, _, h, _, _ => by cases h
  | mapped :: rest, claimed, 0, h, hfree, _ => by
    have hmapped : mapped = some o.1 := some.inj h
    subst hmapped
    unfold claimOutputs
    rw [bind_some, findIdx?_id hids ho, filter_some, if_pos (decide_eq_true hfree)]
    rfl
  | mapped :: rest, claimed, i + 1, h, hfree, hfirst => by
    unfold claimOutputs
    rw [getElem?_cons_succ]
    refine claimOutputs_keeps hids ho rest _ i h (fun hmem => ?_) fun j hj => ?_
    · rcases mem_append.1 hmem with hmem | hmem
      · obtain ⟨hfind, -⟩ := filter_eq_some_iff.1 (mem_toList.1 hmem)
        obtain ⟨id, hid, hfind⟩ := bind_eq_some_iff.1 hfind
        obtain ⟨hlt, hsame, -⟩ := findIdx?_eq_some_iff_getElem.1 hfind
        rw [getElem?_eq_getElem hlt, some.injEq] at ho
        refine hfirst 0 (Nat.succ_pos i) ?_
        rw [getElem?_cons_zero, hid, ← beq_iff_eq.1 hsame, ho]
      · exact hfree hmem
    · have := hfirst (j + 1) (Nat.succ_lt_succ hj)
      rwa [getElem?_cons_succ] at this

/-- As many outputs as open slots: every slot is filled, the filled ones stay, and every output is used. -/
theorem fillSlots_perm : ∀ (slots : List (Option Nat)) (unclaimed : List Nat), slots.countP (·.isNone) = unclaimed.length →
    (fillSlots slots unclaimed).Perm (slots.filterMap (fun slot => slot) ++ unclaimed) ∧
      ∀ (i : Nat), slots[i]? = some (some k) → (fillSlots slots unclaimed)[i]? = some k
  | [], unclaimed, hcount => by
    obtain rfl := eq_nil_of_length_eq_zero hcount.symm
    refine ⟨.nil, fun i h => ?_⟩
    cases h
  | some index :: slots, unclaimed, hcount => by
    obtain ⟨hperm, hkeep⟩ := fillSlots_perm slots unclaimed (by simpa using hcount)
    refine ⟨hperm.cons index, fun i h => ?_⟩
    cases i with
    | zero => exact some.inj h
    | succ i => exact hkeep i h
  | none :: slots, [], hcount => by
    simp at hcount
  | none :: slots, index :: unclaimed, hcount => by
    obtain ⟨hperm, hkeep⟩ := fillSlots_perm slots unclaimed (by simpa using hcount)
    refine ⟨(hperm.cons index).trans perm_middle.symm, fun i h => ?_⟩
    cases i with
    | zero => cases h
    | succ i => exact hkeep i h

theorem countP_isNone_add_length : ∀ (slots : List (Option Nat)),
    slots.countP (·.isNone) + (slots.filterMap (fun slot => slot)).length = slots.length
  | [] => rfl
  | none :: slots => by
    have := countP_isNone_add_length slots
    simp
    omega
  | some _ :: slots => by
    have := countP_isNone_add_length slots
    simp
    omega

/-- Every index is handed out once, and a position whose output is still there gets it. -/
theorem planMonitorOutputIndices_spec (hids : (outputs.map (·.1)).Nodup) (monitorOutputs : List (Option OutputId)) :
    (planMonitorOutputIndices monitorOutputs outputs).Perm (List.range outputs.length) ∧
      ∀ (i k : Nat) (o : OutputId × Rect), i < outputs.length → monitorOutputs[i]? = some (some o.1) → outputs[k]? = some o →
        (∀ j < i, monitorOutputs[j]? ≠ some (some o.1)) →
          (planMonitorOutputIndices monitorOutputs outputs)[i]? = some k := by
  unfold planMonitorOutputIndices
  dsimp only
  have hlen := @claimOutputs_length outputs (monitorOutputs.take (min monitorOutputs.length outputs.length)) []
  obtain ⟨hperm, hnodup, hlt⟩ := @claimOutputs_claims outputs (monitorOutputs.take (min monitorOutputs.length outputs.length)) []
    .nil fun _ h => absurd h not_mem_nil
  have hkeeps : ∀ (i k : Nat) (o : OutputId × Rect), i < outputs.length → monitorOutputs[i]? = some (some o.1) →
      outputs[k]? = some o → (∀ j < i, monitorOutputs[j]? ≠ some (some o.1)) →
        (claimOutputs outputs (monitorOutputs.take (min monitorOutputs.length outputs.length)) []).1[i]? = some (some k) := by
    intro i k o hi hmapped ho hfirst
    have hi' : i < monitorOutputs.length := (List.getElem?_eq_some_iff.1 hmapped).1
    refine claimOutputs_keeps hids ho _ [] i ?_ not_mem_nil fun j hj => ?_
    · rw [getElem?_take_of_lt (by omega)]
      exact hmapped
    · rw [getElem?_take_of_lt (by omega)]
      exact hfirst j hj
  rw [length_take] at hlen
  generalize claimOutputs outputs (monitorOutputs.take (min monitorOutputs.length outputs.length)) [] = claims at *
  obtain ⟨slots, claimed⟩ := claims
  dsimp only at *
  rw [append_nil] at hperm
  have hrest : (range outputs.length).Perm (claimed ++ (range outputs.length).filter fun index => index ∉ claimed) := by
    refine (perm_ext_iff_of_nodup nodup_range ?_).2 fun k => ?_
    · refine nodup_append'.2 ⟨hnodup, nodup_range.filter _, fun k hk hk' => ?_⟩
      exact of_decide_eq_true (mem_filter.1 hk').2 hk
    · rw [mem_append, mem_filter, mem_range, decide_eq_true_eq]
      constructor
      · intro hk
        by_cases hmem : k ∈ claimed
        · exact .inl hmem
        · exact .inr ⟨hk, hmem⟩
      · rintro (hk | ⟨hk, -⟩)
        · exact hlt k hk
        · exact hk
  have hfilled : ((slots ++ replicate (outputs.length - min monitorOutputs.length outputs.length) none).filterMap
      (fun slot => slot)).Perm claimed := by
    rw [filterMap_append, filterMap_replicate_of_none rfl, append_nil]
    exact hperm.symm
  have hopen : (slots ++ replicate (outputs.length - min monitorOutputs.length outputs.length) (none : Option Nat)).countP (·.isNone) =
      ((range outputs.length).filter fun index => index ∉ claimed).length := by
    have hcount := countP_isNone_add_length (slots ++ replicate (outputs.length - min monitorOutputs.length outputs.length) none)
    have hlength := hrest.length_eq
    rw [hfilled.length_eq, length_append, length_replicate] at hcount
    rw [length_append, length_range] at hlength
    omega
  obtain ⟨hfill, -⟩ := @fillSlots_perm 0 _ _ hopen
  refine ⟨(hfill.trans (hfilled.append_right _)).trans hrest.symm, fun i k o hi hmapped ho hfirst => ?_⟩
  refine (fillSlots_perm _ _ hopen).2 i ?_
  have hslot := hkeeps i k o hi hmapped ho hfirst
  rw [getElem?_append_left (List.getElem?_eq_some_iff.1 hslot).1]
  exact hslot

end

/-! ## Rectangles, counted -/

/-- How many of the monitors without an output have this rectangle. -/
def openCount (slots : List OutputSlot) (r : Rect) : Nat := slots.countP fun slot => slot.assigned.isNone && slot.rect == r

def freeCount (outputs : List (OutputId × Rect)) (claimed : List OutputId) (r : Rect) : Nat :=
  outputs.countP fun o => o.2 == r && decide (o.1 ∉ claimed)

def assignedIds (slots : List OutputSlot) : List OutputId := slots.filterMap (·.assigned)

theorem assignedIds_some {slot : OutputSlot} {slots : List OutputSlot} {id : OutputId} (h : slot.assigned = some id) :
    assignedIds (slot :: slots) = id :: assignedIds slots := filterMap_cons_some h

theorem assignedIds_none {slots : List OutputSlot} (h : slot.assigned = none) :
    assignedIds (slot :: slots) = assignedIds slots := filterMap_cons_none h

/-- A later pass on a monitor: an output that it has stays, one that it gets has its rectangle. -/
structure Refines (outputs : List (OutputId × Rect)) (a b : OutputSlot) : Prop where
  monitor : b.monitor = a.monitor
  rect : b.rect = a.rect
  kept : ∀ id, a.assigned = some id → b.assigned = some id
  fits : ∀ id, b.assigned = some id → a.assigned = none → (id, b.rect) ∈ outputs

section

variable {outputs : List (OutputId × Rect)} {claimed : List OutputId}

theorem freeCount_cons : ∀ {outputs : List (OutputId × Rect)} {o : OutputId × Rect}, (outputs.map (·.1)).Nodup → o ∈ outputs →
    o.1 ∉ claimed → ∀ r, freeCount outputs (o.1 :: claimed) r + (if o.2 == r then 1 else 0) = freeCount outputs claimed r
  | [], _, _, hmem, _, _ => absurd hmem not_mem_nil
  | head :: outputs, o, hids, hmem, hfree, r => by
    rw [map_cons, nodup_cons] at hids
    unfold freeCount
    rw [countP_cons, countP_cons]
    rcases mem_cons.1 hmem with rfl | hmem
    · -- the others have other ids
      have hothers : outputs.countP (fun e => e.2 == r && decide (e.1 ∉ o.1 :: claimed)) =
          outputs.countP fun e => e.2 == r && decide (e.1 ∉ claimed) := by
        refine countP_congr fun e he => ?_
        have hne : e.1 ≠ o.1 := fun h => hids.1 (h ▸ List.mem_map_of_mem he)
        rw [Bool.and_eq_true, Bool.and_eq_true, decide_eq_true_eq, decide_eq_true_eq, mem_cons, not_or]
        exact ⟨fun h => ⟨h.1, h.2.2⟩, fun h => ⟨h.1, hne, h.2⟩⟩
      rw [hothers]
      simp [hfree]
    · have hne : head.1 ≠ o.1 := fun h => hids.1 (h ▸ List.mem_map_of_mem hmem)
      have ih := freeCount_cons hids.2 hmem hfree r
      unfold freeCount at ih
      have hhead : decide (head.1 ∉ o.1 :: claimed) = decide (head.1 ∉ claimed) := by
        rw [decide_eq_decide, mem_cons, not_or]
        exact ⟨fun h => h.2, fun h => ⟨hne, h⟩⟩
      rw [hhead]
      omega

theorem rect_unique (hids : (outputs.map (·.1)).Nodup) {id : OutputId} {r' : Rect} (h : (id, r) ∈ outputs) (h' : (id, r') ∈ outputs) :
    r = r' :=
  congrArg Prod.snd (inj_on_of_nodup_map hids h h' rfl)

end

/-! ## Giving every monitor an output -/

section

variable {outputs : List (OutputId × Rect)}

/-- What `keepOutputs` gives a monitor. -/
theorem keeps_mem {current : Option OutputId} {claimed : List OutputId} {id : OutputId}
    (h : (current.filter fun id => outputs.any (fun o => o.1 == id && o.2 == r) && decide (id ∉ claimed)) = some id) :
    current = some id ∧ (id, r) ∈ outputs ∧ id ∉ claimed := by
  obtain ⟨hcurrent, hkeep⟩ := filter_eq_some_iff.1 h
  rw [Bool.and_eq_true, List.any_eq_true, decide_eq_true_eq] at hkeep
  obtain ⟨⟨⟨oid, orect⟩, ho, hsame⟩, hfree⟩ := hkeep
  rw [Bool.and_eq_true, beq_iff_eq, beq_iff_eq] at hsame
  obtain ⟨rfl, rfl⟩ := hsame
  exact ⟨hcurrent, ho, hfree⟩

/-- The first pass: what is kept has the monitor's rectangle, and of every rectangle as many monitors stay open as outputs stay free. -/
theorem keepOutputs_spec (hids : (outputs.map (·.1)).Nodup) : ∀ (slots : List OutputSlot) (claimed : List OutputId), claimed.Nodup →
    List.Forall₂ (fun a b : OutputSlot => b.monitor = a.monitor ∧ b.rect = a.rect ∧ ∀ id, b.assigned = some id → (id, b.rect) ∈ outputs)
        slots (keepOutputs outputs slots claimed).1 ∧
      (keepOutputs outputs slots claimed).2.Perm (assignedIds (keepOutputs outputs slots claimed).1 ++ claimed) ∧
      (keepOutputs outputs slots claimed).2.Nodup ∧
      ∀ r, openCount (keepOutputs outputs slots claimed).1 r + freeCount outputs claimed r =
        slots.countP (·.rect == r) + freeCount outputs (keepOutputs outputs slots claimed).2 r
  | [], claimed, hnodup => ⟨.nil, .refl _, hnodup, fun _ => rfl⟩
  | slot :: slots, claimed, hnodup => by
    unfold keepOutputs
    dsimp only
    rcases hkept : slot.current.filter fun id => outputs.any (fun o => o.1 == id && o.2 == slot.rect) && decide (id ∉ claimed) with
      _ | id
    · obtain ⟨hall, hperm, hnodup', hcount⟩ := keepOutputs_spec hids slots claimed hnodup
      refine ⟨.cons ⟨rfl, rfl, fun id h => by cases h⟩ hall, hperm, hnodup', fun r => ?_⟩
      have := hcount r
      unfold openCount at this ⊢
      rw [toList_none, nil_append, countP_cons, countP_cons]
      simp only [isNone_none, Bool.true_and]
      omega
    · obtain ⟨-, hmem, hfree⟩ := keeps_mem hkept
      obtain ⟨hall, hperm, hnodup', hcount⟩ := keepOutputs_spec hids slots (id :: claimed) (nodup_cons.2 ⟨hfree, hnodup⟩)
      refine ⟨.cons ⟨rfl, rfl, fun id' h => ?_⟩ hall, hperm.trans perm_middle, hnodup', fun r => ?_⟩
      · cases h
        exact hmem
      · have hr := hcount r
        have htaken := freeCount_cons hids hmem hfree r
        unfold openCount at hr ⊢
        rw [toList_some, singleton_append, countP_cons, countP_cons, isNone_some, Bool.false_and,
          if_neg Bool.false_ne_true]
        dsimp only at htaken
        omega

/-- A monitor whose output still has its rectangle keeps it, unless an earlier one does. -/
theorem keepOutputs_keeps (hids : (outputs.map (·.1)).Nodup) {prev : OutputId} (hprev : slot.current = some prev)
    (hmem : (prev, slot.rect) ∈ outputs) : ∀ (slots : List OutputSlot) (claimed : List OutputId) (i : Nat), slots[i]? = some slot →
      prev ∉ claimed → (∀ j < i, ∀ other, slots[j]? = some other → ¬ (other.current = some prev ∧ other.rect = slot.rect)) →
        ∃ b, (keepOutputs outputs slots claimed).1[i]? = some b ∧ b.assigned = some prev
  | [], _, _, h, _, _ => by cases h
  | head :: slots, claimed, 0, h, hfree, _ => by
    obtain rfl : head = slot := some.inj h
    refine ⟨_, rfl, ?_⟩
    rw [hprev, filter_some, if_pos]
    rw [Bool.and_eq_true, List.any_eq_true, decide_eq_true_eq]
    exact ⟨⟨_, hmem, by simp⟩, hfree⟩
  | head :: slots, claimed, i + 1, h, hfree, hfirst => by
    refine keepOutputs_keeps hids hprev hmem slots _ i h (fun hin => ?_) fun j hj other hother => ?_
    · rcases mem_append.1 hin with hin | hin
      · obtain ⟨hcurrent, hhead, -⟩ := keeps_mem (mem_toList.1 hin)
        exact hfirst 0 (Nat.succ_pos i) head rfl ⟨hcurrent, rect_unique hids hhead hmem⟩
      · exact hfree hin
    · exact hfirst (j + 1) (Nat.succ_lt_succ hj) other hother

/-- The second pass leaves no monitor open as long as no rectangle has more open monitors than free outputs. -/
theorem fitOutputs_spec (hids : (outputs.map (·.1)).Nodup) : ∀ (slots : List OutputSlot) (index : Nat) (claimed : List OutputId),
    claimed.Nodup → (∀ r, openCount slots r ≤ freeCount outputs claimed r) →
      List.Forall₂ (Refines outputs) slots (fitOutputs outputs index slots claimed).1 ∧
        (∀ b ∈ (fitOutputs outputs index slots claimed).1, b.assigned.isSome = true) ∧
        (assignedIds (fitOutputs outputs index slots claimed).1 ++ claimed).Perm
          (assignedIds slots ++ (fitOutputs outputs index slots claimed).2) ∧
        (fitOutputs outputs index slots claimed).2.Nodup
  | [], _, claimed, hnodup, _ => ⟨.nil, fun _ h => absurd h not_mem_nil, .refl _, hnodup⟩
  | slot :: slots, index, claimed, hnodup, hroom => by
    unfold fitOutputs
    dsimp only
    cases hassigned : slot.assigned with
    | some id =>
      rw [isSome_some, if_pos rfl]
      have hroom' : ∀ r, openCount slots r ≤ freeCount outputs claimed r := fun r => by
        have := hroom r
        unfold openCount at this ⊢
        rw [countP_cons] at this
        omega
      obtain ⟨hall, hsome, hperm, hnodup'⟩ := fitOutputs_spec hids slots (index + 1) claimed hnodup hroom'
      refine ⟨.cons ⟨rfl, rfl, fun id' h => ?_, fun id' _ h => ?_⟩ hall, fun b hb => ?_, ?_, hnodup'⟩
      · rw [hassigned] at h
        exact h
      · rw [hassigned] at h
        cases h
      · rcases mem_cons.1 hb with rfl | hb
        · rfl
        · exact hsome b hb
      · rw [@assignedIds_some _ _ id rfl, assignedIds_some hassigned]
        exact hperm.cons id
    | none =>
      rw [isSome_none, if_neg Bool.false_ne_true]
      -- an open monitor of this rectangle leaves a free output of it
      obtain ⟨o, hmatched, hmem, hrect, hfree⟩ : ∃ o, ((outputs[index]?).filter fun o => o.2 == slot.rect && decide (o.1 ∉ claimed)).or
          (outputs.find? fun o => o.2 == slot.rect && decide (o.1 ∉ claimed)) = some o ∧ o ∈ outputs ∧ o.2 = slot.rect ∧
            o.1 ∉ claimed := by
        have hopen : 0 < outputs.countP fun o => o.2 == slot.rect && decide (o.1 ∉ claimed) := by
          have := hroom slot.rect
          unfold openCount freeCount at this
          rw [countP_cons, hassigned, isNone_none, Bool.true_and, if_pos (beq_self_eq_true _)] at this
          omega
        have hfound : ∃ o, ((outputs[index]?).filter fun o => o.2 == slot.rect && decide (o.1 ∉ claimed)).or
            (outputs.find? fun o => o.2 == slot.rect && decide (o.1 ∉ claimed)) = some o := by
          obtain ⟨o, ho, hfits⟩ := countP_pos_iff.1 hopen
          rw [← isSome_iff_exists, isSome_or, find?_isSome.2 ⟨o, ho, hfits⟩, Bool.or_true]
        obtain ⟨o, ho⟩ := hfound
        refine ⟨o, ho, ?_⟩
        rcases or_eq_some_iff.1 ho with h | ⟨-, h⟩
        · obtain ⟨hget, hfits⟩ := filter_eq_some_iff.1 h
          rw [Bool.and_eq_true, beq_iff_eq, decide_eq_true_eq] at hfits
          exact ⟨mem_of_getElem? hget, hfits⟩
        · have hfits := find?_some h
          rw [Bool.and_eq_true, beq_iff_eq, decide_eq_true_eq] at hfits
          exact ⟨mem_of_find?_eq_some h, hfits⟩
      rw [hmatched, map_some, toList_some, singleton_append, none_or]
      have hroom' : ∀ r, openCount slots r ≤ freeCount outputs (o.1 :: claimed) r := fun r => by
        have hr := hroom r
        have htaken := freeCount_cons hids hmem hfree r
        unfold openCount at hr ⊢
        rw [countP_cons, hassigned, isNone_none, Bool.true_and] at hr
        rw [hrect] at htaken
        omega
      obtain ⟨hall, hsome, hperm, hnodup'⟩ :=
        fitOutputs_spec hids slots (index + 1) (o.1 :: claimed) (nodup_cons.2 ⟨hfree, hnodup⟩) hroom'
      refine ⟨.cons ⟨rfl, rfl, fun id' h => ?_, fun id' h _ => ?_⟩ hall, fun b hb => ?_, ?_, hnodup'⟩
      · rw [hassigned] at h
        cases h
      · cases h
        exact hrect ▸ hmem
      · rcases mem_cons.1 hb with rfl | hb
        · rfl
        · exact hsome b hb
      · rw [@assignedIds_some _ _ o.1 rfl, assignedIds_none hassigned]
        exact perm_middle.symm.trans hperm

theorem positionOutputs_assigned : ∀ (slots : List OutputSlot) (index : Nat) (claimed : List OutputId),
    (∀ b ∈ slots, b.assigned.isSome = true) → positionOutputs outputs index slots claimed = (slots, claimed)
  | [], _, _, _ => rfl
  | slot :: slots, index, claimed, hall => by
    have hslot := hall slot (mem_cons_self ..)
    unfold positionOutputs
    dsimp only
    rw [if_pos hslot, toList_none, nil_append,
      positionOutputs_assigned slots (index + 1) claimed fun b hb => hall b (mem_cons_of_mem _ hb)]
    obtain ⟨id, hid⟩ := isSome_iff_exists.1 hslot
    rw [or_none]

end

section

variable {α β : Type}

theorem forall₂_getElem? {R : α → β → Prop} {l : List α} {l' : List β} (h : List.Forall₂ R l l') :
    ∀ {i : Nat} {a : α}, l[i]? = some a → ∃ b, l'[i]? = some b ∧ R a b := by
  induction h with
  | nil =>
    intro i a ha
    cases ha
  | cons hr _ ih =>
    intro i a ha
    cases i with
    | zero =>
      cases ha
      exact ⟨_, rfl, hr⟩
    | succ i => exact ih ha

theorem filterMap_getElem? {f : α → Option β} : ∀ {l : List α}, (∀ a ∈ l, (f a).isSome = true) →
    ∀ i : Nat, (l.filterMap f)[i]? = (l[i]?).bind f
  | [], _, i => rfl
  | a :: l, h, i => by
    obtain ⟨b, hb⟩ := isSome_iff_exists.1 (h a (mem_cons_self ..))
    rw [filterMap_cons_some hb]
    cases i with
    | zero => exact hb.symm
    | succ i => exact filterMap_getElem? (fun a' ha' => h a' (mem_cons_of_mem _ ha')) i

end

/-- The monitor gets an output with its rectangle: its own, if that still has it and no earlier one stands for the same. -/
def GetsOutput (monitors : List OutputSlot) (outputs : List (OutputId × Rect)) (i : Nat) (slot : OutputSlot) : Prop :=
  ∃ id, (planOutputMap monitors outputs)[i]? = some (slot.monitor, id) ∧ (id, slot.rect) ∈ outputs ∧
    ∀ prev, slot.current = some prev → (prev, slot.rect) ∈ outputs →
      (∀ j < i, ∀ other, monitors[j]? = some other → ¬ (other.current = some prev ∧ other.rect = slot.rect)) → id = prev

section

variable {outputs : List (OutputId × Rect)}

/-- As many monitors as outputs of every rectangle: every monitor gets an output, no output twice. -/
theorem planOutputMap_spec (hids : (outputs.map (·.1)).Nodup) {monitors : List OutputSlot}
    (hrects : (monitors.map (·.rect)).Perm (outputs.map (·.2))) :
    (planOutputMap monitors outputs).map (·.1) = monitors.map (·.monitor) ∧
      ((planOutputMap monitors outputs).map (·.2)).Nodup ∧
      ∀ (i : Nat) (slot : OutputSlot), monitors[i]? = some slot → GetsOutput monitors outputs i slot := by
  obtain ⟨hkept, hclaimed, hnodup, hcount⟩ := keepOutputs_spec hids monitors [] .nil
  have hroom : ∀ r, openCount (keepOutputs outputs monitors []).1 r ≤ freeCount outputs (keepOutputs outputs monitors []).2 r := by
    intro r
    have hr := hcount r
    have hsame : monitors.countP (·.rect == r) = freeCount outputs [] r := by
      have hmap := hrects.countP_eq (· == r)
      rw [countP_map, countP_map] at hmap
      refine hmap.trans (countP_congr fun o _ => ?_)
      simp
    omega
  obtain ⟨hfitted, hall, hperm, hnodup'⟩ := fitOutputs_spec hids _ 0 _ hnodup hroom
  have hplan : planOutputMap monitors outputs =
      (fitOutputs outputs 0 (keepOutputs outputs monitors []).1 (keepOutputs outputs monitors []).2).1.filterMap
        fun slot => slot.assigned.map fun id => (slot.monitor, id) := by
    unfold planOutputMap
    dsimp only
    rw [positionOutputs_assigned _ 0 _ hall]
  have hids' : (planOutputMap monitors outputs).map (·.2) =
      assignedIds (fitOutputs outputs 0 (keepOutputs outputs monitors []).1 (keepOutputs outputs monitors []).2).1 := by
    rw [hplan, map_filterMap]
    refine filterMap_congr fun slot _ => ?_
    rw [Option.map_map]
    exact congrFun map_id slot.assigned
  have hget : ∀ (i : Nat) (slot : OutputSlot), monitors[i]? = some slot → GetsOutput monitors outputs i slot := by
    intro i slot hslot
    obtain ⟨kept, hk, hmonitor, hrect, hfits⟩ := forall₂_getElem? hkept hslot
    obtain ⟨fitted, hf, href⟩ := forall₂_getElem? hfitted hk
    obtain ⟨id, hid⟩ := isSome_iff_exists.1 (hall fitted (mem_of_getElem? hf))
    refine ⟨id, ?_, ?_, fun prev hprev hmem hfirst => ?_⟩
    · rw [hplan, filterMap_getElem? fun b hb => by rw [isSome_map]; exact hall b hb]
      rw [hf, bind_some, hid, map_some, href.monitor, hmonitor]
    · rw [← hrect, ← href.rect]
      cases hassigned : kept.assigned with
      | none => exact href.fits id hid hassigned
      | some id' =>
        obtain rfl : id' = id := some.inj ((href.kept id' hassigned).symm.trans hid)
        exact href.rect ▸ hfits id' hassigned
    · obtain ⟨b, hb, hassigned⟩ := keepOutputs_keeps hids hprev hmem monitors [] i hslot not_mem_nil hfirst
      obtain rfl : kept = b := some.inj (hk.symm.trans hb)
      exact some.inj (hid.symm.trans (href.kept prev hassigned))
  refine ⟨ext_getElem? fun i => ?_, ?_, hget⟩
  · rw [getElem?_map, getElem?_map]
    rcases hslot : monitors[i]? with _ | slot
    · have hlen : (planOutputMap monitors outputs).length ≤ monitors.length := by
        rw [hplan]
        refine (length_filterMap_le _ _).trans ?_
        rw [← hfitted.length_eq, ← hkept.length_eq]
      rw [getElem?_eq_none (hlen.trans (List.getElem?_eq_none_iff.1 hslot))]
      rfl
    · obtain ⟨id, hid, -⟩ := hget i slot hslot
      rw [hid]
      rfl
  · rw [hids']
    rw [append_nil] at hclaimed
    have hcancel : (assignedIds (fitOutputs outputs 0 (keepOutputs outputs monitors []).1 (keepOutputs outputs monitors []).2).1).Perm
        (fitOutputs outputs 0 (keepOutputs outputs monitors []).1 (keepOutputs outputs monitors []).2).2 := by
      refine (perm_append_right_iff (keepOutputs outputs monitors []).2).1 (hperm.trans ?_)
      exact perm_append_comm.trans (hclaimed.symm.append_left _)
    exact hcancel.nodup_iff.2 hnodup'

/-- A display refresh is one to one: every output goes to one position, a monitor whose output is still there keeps it, and
every monitor then gets an output with its rectangle. -/
theorem display_refresh_one_to_one (hids : (outputs.map (·.1)).Nodup) :
    (∀ monitorOutputs : List (Option OutputId),
      (planMonitorOutputIndices monitorOutputs outputs).Perm (List.range outputs.length) ∧
        ∀ (i k : Nat) (o : OutputId × Rect), i < outputs.length → monitorOutputs[i]? = some (some o.1) → outputs[k]? = some o →
          (∀ j < i, monitorOutputs[j]? ≠ some (some o.1)) →
            (planMonitorOutputIndices monitorOutputs outputs)[i]? = some k) ∧
    ∀ monitors : List OutputSlot,
      (monitors.map fun m => some m.rect) =
          ((planMonitorOutputIndices (monitors.map (·.current)) outputs).map fun k => (outputs[k]?).map (·.2)) ∨
        monitors.map (·.rect) = outputs.map (·.2) →
      (planOutputMap monitors outputs).map (·.1) = monitors.map (·.monitor) ∧
        ((planOutputMap monitors outputs).map (·.2)).Nodup ∧
        ∀ (i : Nat) (slot : OutputSlot), monitors[i]? = some slot → GetsOutput monitors outputs i slot := by
  refine ⟨fun monitorOutputs => planMonitorOutputIndices_spec hids monitorOutputs, fun monitors hrects => ?_⟩
  refine planOutputMap_spec hids ?_
  rcases hrects with hplanned | hpositions
  · -- the outputs, handed out, are the outputs
    obtain ⟨hperm, -⟩ := planMonitorOutputIndices_spec hids (monitors.map (·.current))
    have hrange : (range outputs.length).map (fun k => (outputs[k]?).map (·.2)) = outputs.map fun o => some o.2 := by
      refine ext_getElem? fun i => ?_
      rw [getElem?_map, getElem?_map]
      by_cases hi : i < outputs.length
      · rw [getElem?_range hi, getElem?_eq_getElem hi, map_some, getElem?_eq_getElem hi]
        rfl
      · rw [getElem?_eq_none (by rw [length_range]; omega), getElem?_eq_none (by omega)]
        rfl
    have hsome : (monitors.map fun m => some m.rect).Perm (outputs.map fun o => some o.2) := by
      rw [hplanned, ← hrange]
      exact hperm.map _
    have hmap := hsome.filterMap fun r => r
    rwa [filterMap_map, filterMap_map, show (fun r => r) ∘ (fun m : OutputSlot => some m.rect) = fun m => some m.rect from rfl,
      show (fun r => r) ∘ (fun o : OutputId × Rect => some o.2) = fun o => some o.2 from rfl, filterMap_eq_map',
      filterMap_eq_map'] at hmap
  · rw [hpositions]

end

/-- Two clones whose monitors both stand for the first: the second gets the other clone. -/
theorem shared_output_goes_to_first :
    ([⟨⟨0, 1⟩, ⟨0, 0, 1920, 1080⟩, some 1, none⟩, ⟨⟨1, 1⟩, ⟨0, 0, 1920, 1080⟩, some 1, none⟩] : List OutputSlot).map (·.rect) =
        ([(1, ⟨0, 0, 1920, 1080⟩), (2, ⟨0, 0, 1920, 1080⟩)] : List (OutputId × Rect)).map (·.2) ∧
      planOutputMap [⟨⟨0, 1⟩, ⟨0, 0, 1920, 1080⟩, some 1, none⟩, ⟨⟨1, 1⟩, ⟨0, 0, 1920, 1080⟩, some 1, none⟩]
        [(1, ⟨0, 0, 1920, 1080⟩), (2, ⟨0, 0, 1920, 1080⟩)] = [(⟨0, 1⟩, 1), (⟨1, 1⟩, 2)] ∧
      ((1, ⟨0, 0, 1920, 1080⟩) : OutputId × Rect) ∈ ([(1, ⟨0, 0, 1920, 1080⟩), (2, ⟨0, 0, 1920, 1080⟩)] : List (OutputId × Rect)) := by
  decide

/-- Two panels, enumerated the other way round, one of them moved below the other. -/
theorem display_refresh_one_to_one_swapped :
    (planOutputMap [⟨⟨0, 1⟩, ⟨0, 0, 1920, 1080⟩, some 1, none⟩, ⟨⟨1, 1⟩, ⟨0, 1080, 1280, 800⟩, some 2, none⟩]
        [(2, ⟨0, 1080, 1280, 800⟩), (1, ⟨0, 0, 1920, 1080⟩)]).map (·.1) = [⟨0, 1⟩, ⟨1, 1⟩] ∧
      ((planOutputMap [⟨⟨0, 1⟩, ⟨0, 0, 1920, 1080⟩, some 1, none⟩, ⟨⟨1, 1⟩, ⟨0, 1080, 1280, 800⟩, some 2, none⟩]
        [(2, ⟨0, 1080, 1280, 800⟩), (1, ⟨0, 0, 1920, 1080⟩)]).map (·.2)).Nodup :=
  have h := (@display_refresh_one_to_one [(2, ⟨0, 1080, 1280, 800⟩), (1, ⟨0, 0, 1920, 1080⟩)] (by decide)).2
    [⟨⟨0, 1⟩, ⟨0, 0, 1920, 1080⟩, some 1, none⟩, ⟨⟨1, 1⟩, ⟨0, 1080, 1280, 800⟩, some 2, none⟩] (.inl (by decide))
  ⟨h.1, h.2.1⟩

end Jwm
