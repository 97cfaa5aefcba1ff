/-
The numbers by which bars, docks, locks and saved layouts address a monitor. A hot-added monitor takes the lowest free
number; a refresh numbers by position, but only the monitors whose rectangle changes.
-/
import Jwm.Data.Run
import Jwm.Wm.MonitorFaces
import Mathlib.Algebra.Order.Group.Int
import Mathlib.Data.Int.Interval

namespace Jwm

open List Option KeyMap

/-! ## The lowest free number -/

theorem firstGap_spec : ∀ (used : List Int) {c : Int}, used.Pairwise (· < ·) → (∀ x ∈ used, c ≤ x) → 0 ≤ c →
    c + used.length ≤ I32.max → c ≤ firstGap c used ∧ firstGap c used ∉ used
  | [], c, _, _, _, _ => ⟨le_refl c, not_mem_nil⟩
  | num :: used, c, hsort, hle, h0, hmax => by
    rw [pairwise_cons] at hsort
    rw [length_cons, Nat.cast_succ] at hmax
    unfold firstGap
    by_cases hnum : num = c
    · subst hnum
      have hnext : I32.saturatingAdd num 1 = num + 1 := by
        unfold I32.saturatingAdd I32.clamp
        have hlo : I32.min ≤ num + 1 := by unfold I32.min; omega
        rw [min_eq_right (by omega), max_eq_right hlo]
      rw [if_pos rfl, hnext]
      obtain ⟨hge, hmem⟩ := firstGap_spec used (c := num + 1) hsort.2 (fun x hx => hsort.1 x hx) (by omega) (by omega)
      refine ⟨by omega, ?_⟩
      rw [mem_cons, not_or]
      exact ⟨by omega, hmem⟩
    · have hgt : num > c := lt_of_le_of_ne (hle num mem_cons_self) (Ne.symm hnum)
      rw [if_neg hnum, if_pos hgt]
      refine ⟨le_refl c, ?_⟩
      rw [mem_cons, not_or]
      refine ⟨Ne.symm hnum, fun hc => ?_⟩
      have := hsort.1 c hc
      omega

theorem firstGap_le_max : ∀ (used : List Int) {c : Int}, c ≤ I32.max → firstGap c used ≤ I32.max
  | [], _, h => h
  | num :: used, c, h => by
    unfold firstGap
    split
    · refine firstGap_le_max used ?_
      unfold I32.saturatingAdd I32.clamp I32.min I32.max
      omega
    · split
      · exact h
      · exact firstGap_le_max used h

/-- Fewer than `2 ^ 31` numbers leave a free one. -/
theorem lowestUnusedMonitorNum_spec {nums : List Int} (h : nums.length < 2 ^ 31) :
    0 ≤ lowestUnusedMonitorNum nums ∧ lowestUnusedMonitorNum nums ∉ nums := by
  unfold lowestUnusedMonitorNum
  generalize hl : ((nums.filter (0 ≤ ·)).mergeSort (· ≤ ·)) = sorted
  have hmem : ∀ x, x ∈ sorted.dedup ↔ x ∈ nums ∧ 0 ≤ x := by
    intro x
    rw [mem_dedup, ← hl, mem_mergeSort, mem_filter, decide_eq_true_eq]
  have hle : sorted.Pairwise (· ≤ ·) := by
    rw [← hl]
    exact pairwise_mergeSort' (· ≤ ·) _
  have hlt : sorted.dedup.Pairwise (· < ·) :=
    ((hle.sublist (dedup_sublist sorted)).and (nodup_dedup sorted)).imp fun hab => lt_of_le_of_ne hab.1 hab.2
  have hlen : sorted.dedup.length ≤ nums.length :=
    calc sorted.dedup.length ≤ sorted.length := (dedup_sublist sorted).length_le
      _ = (nums.filter (0 ≤ ·)).length := by rw [← hl, length_mergeSort]
      _ ≤ nums.length := length_filter_le _ _
  obtain ⟨hge, hnot⟩ := firstGap_spec sorted.dedup (c := 0) hlt (fun x hx => ((hmem x).1 hx).2) (le_refl 0)
    (by unfold I32.max; omega)
  exact ⟨hge, fun hx => hnot ((hmem _).2 ⟨hx, hge⟩)⟩

theorem asI32_le_max (n : Nat) : asI32 n ≤ I32.max := by
  unfold asI32 I32.max
  have := (BitVec.ofNat 32 n).toInt_lt
  omega

theorem asI32_of_lt {n : Nat} (h : n < 2 ^ 31) : asI32 n = n := by
  unfold asI32
  rw [BitVec.toInt_eq_toNat_of_lt (by simp; omega)]
  simp
  omega

theorem length_le_of_i32 {l : List Int} (hnd : l.Nodup) (h : ∀ x ∈ l, 0 ≤ x ∧ x ≤ I32.max) : l.length ≤ 2 ^ 31 := by
  have hsub : l.toFinset ⊆ Finset.Ico (0 : Int) (2 ^ 31) := by
    intro x hx
    rw [List.mem_toFinset] at hx
    obtain ⟨h0, hmax⟩ := h x hx
    unfold I32.max at hmax
    rw [Finset.mem_Ico]
    omega
  have hcard := Finset.card_le_card hsub
  rw [toFinset_card_of_nodup hnd, Int.card_Ico] at hcard
  exact hcard

/-! ## Unique numbers -/

/-- No live monitor has a negative number, and no two share one. -/
def NumbersUnique (s : WMState) : Prop :=
  ∀ k m, s.monitors.get? k = some m → 0 ≤ m.num ∧ ∀ k' m', s.monitors.get? k' = some m' → m'.num = m.num → k' = k

/-- What holds whether or not the numbers are unique. -/
structure Numbered (s : WMState) : Prop extends s.Ordered where
  le_max : ∀ k f, s.face k = some f → f.1 ≤ I32.max

section Unique

variable {s s' : WMState}

theorem face_eq_some {k : MonitorKey} {f : Int × Rect} :
    s.face k = some f ↔ ∃ m, s.monitors.get? k = some m ∧ (m.num, m.rect) = f := by
  unfold WMState.face
  rw [map_eq_some_iff]

theorem numbersUnique_iff_face : NumbersUnique s ↔
    ∀ k f, s.face k = some f → 0 ≤ f.1 ∧ ∀ k' f', s.face k' = some f' → f'.1 = f.1 → k' = k := by
  constructor
  · intro h k f hf
    obtain ⟨m, hm, rfl⟩ := face_eq_some.1 hf
    refine ⟨(h k m hm).1, fun k' f' hf' e => ?_⟩
    obtain ⟨m', hm', rfl⟩ := face_eq_some.1 hf'
    exact (h k m hm).2 k' m' hm' e
  · intro h k m hm
    have hk := h k (m.num, m.rect) (face_eq_some.2 ⟨m, hm, rfl⟩)
    refine ⟨hk.1, fun k' m' hm' e => ?_⟩
    exact hk.2 k' (m'.num, m'.rect) (face_eq_some.2 ⟨m', hm', rfl⟩) e

theorem SameFaces.numbered (h : SameFaces s s') (hs : Numbered s) : Numbered s' :=
  ⟨h.ordered hs.toOrdered, fun k f hf => hs.le_max k f (h.face k ▸ hf)⟩

theorem SameFaces.numbersUnique_iff (h : SameFaces s s') : NumbersUnique s' ↔ NumbersUnique s := by
  rw [numbersUnique_iff_face, numbersUnique_iff_face]
  simp only [h.face]

theorem numbersUnique_iff_positions (h : s.Ordered) {num : Nat → Int}
    (hnum : ∀ i k, s.monitorOrder[i]? = some k → (s.face k).map Prod.fst = some (num i)) :
    NumbersUnique s ↔ ∀ i < s.monitorOrder.length, 0 ≤ num i ∧ ∀ j < s.monitorOrder.length, num j = num i → j = i := by
  have face_at : ∀ i (hi : i < s.monitorOrder.length), ∃ f, s.face s.monitorOrder[i] = some f ∧ f.1 = num i := by
    intro i hi
    have hk := hnum i _ (getElem?_eq_getElem hi)
    obtain ⟨f, hf, e⟩ := map_eq_some_iff.1 hk
    exact ⟨f, hf, e⟩
  have pos_of : ∀ k f, s.face k = some f → ∃ i, ∃ hi : i < s.monitorOrder.length, s.monitorOrder[i] = k ∧ f.1 = num i := by
    intro k f hf
    obtain ⟨i, hi, rfl⟩ := getElem_of_mem ((h.mem k).2 ⟨f, hf⟩)
    obtain ⟨f', hf', e⟩ := face_at i hi
    rw [hf] at hf'
    cases hf'
    exact ⟨i, hi, rfl, e⟩
  rw [numbersUnique_iff_face]
  constructor
  · intro hu i hi
    obtain ⟨f, hf, e⟩ := face_at i hi
    refine ⟨e ▸ (hu _ f hf).1, fun j hj hji => ?_⟩
    obtain ⟨f', hf', e'⟩ := face_at j hj
    have hkey := (hu _ f hf).2 _ f' hf' (by rw [e', e, hji])
    exact (List.Nodup.getElem_inj_iff h.nodup).1 hkey
  · intro hu k f hf
    obtain ⟨i, hi, rfl, e⟩ := pos_of k f hf
    refine ⟨e ▸ (hu i hi).1, fun k' f' hf' he => ?_⟩
    obtain ⟨j, hj, rfl, e'⟩ := pos_of k' f' hf'
    have hji := (hu i hi).2 j hj (by rw [← e', ← e, he])
    subst hji
    rfl

theorem length_le_of_unique (h : Numbered s) (hu : NumbersUnique s) : s.monitorOrder.length ≤ 2 ^ 31 := by
  rw [numbersUnique_iff_face] at hu
  have hget : ∀ k ∈ s.monitorOrder, ∃ f, s.face k = some f ∧ ((s.face k).map Prod.fst).getD 0 = f.1 := by
    intro k hk
    obtain ⟨f, hf⟩ := (h.mem k).1 hk
    exact ⟨f, hf, by rw [hf]; rfl⟩
  have hnd : (s.monitorOrder.map fun k => ((s.face k).map Prod.fst).getD 0).Nodup := by
    refine List.Nodup.map_on (fun k hk k' hk' e => ?_) h.nodup
    obtain ⟨f, hf, ef⟩ := hget k hk
    obtain ⟨f', hf', ef'⟩ := hget k' hk'
    exact (hu k' f' hf').2 k f hf (by rw [← ef, e, ef'])
  have hrange : ∀ x ∈ s.monitorOrder.map fun k => ((s.face k).map Prod.fst).getD 0, 0 ≤ x ∧ x ≤ I32.max := by
    intro x hx
    obtain ⟨k, hk, rfl⟩ := List.mem_map.1 hx
    obtain ⟨f, hf, ef⟩ := hget k hk
    simp only [ef]
    exact ⟨(hu k f hf).1, h.le_max k f hf⟩
  have := length_le_of_i32 hnd hrange
  rwa [length_map] at this

end Unique

/-! ## Operations -/

inductive OutputOp where
  | addMonitor (key : MonitorKey) (info : OutputInfo)
  | handleOutputRemoved (ctx : HotplugContext) (id : OutputId)
  | updategeom (ctx : HotplugContext) (fresh : Nat → MonitorKey) (screen : Rect) (rootMon : Option MonitorKey)
      (outputs : List OutputInfo)

/-- The monitors after an operation; the configuration and the kind of backend are fixed. -/
def performOutputOp (cfg : MonitorConfig) (wayland : Bool) (s : WMState) : OutputOp → WMState × Unit
  | .addMonitor key info => (addMonitor cfg s key info, ())
  | .handleOutputRemoved ctx id => (handleOutputRemoved ctx s id, ())
  | .updategeom ctx fresh screen rootMon outputs => (updategeom cfg wayland ctx s fresh screen rootMon outputs, ())

/-- The slot map hands out keys that no live monitor has. -/
def HandsOutKeys (s : WMState) : OutputOp → Prop
  | .addMonitor key _ => s.monitors.get? key = none
  | .handleOutputRemoved _ _ => True
  | .updategeom _ fresh _ _ _ => Function.Injective fresh ∧ ∀ i, s.monitors.get? (fresh i) = none

/-- The monitor at position `i` exists and has the rectangle planned for it. -/
def KeepsRect (s : WMState) (planned : List OutputInfo) (i : Nat) (m : WMMonitor) : Prop :=
  ∃ key o, s.monitorOrder[i]? = some key ∧ s.monitors.get? key = some m ∧ planned[i]? = some o ∧ m.rect = o.rect

/-- A monitor that keeps its rectangle, and so its number, does not have the number of a position
whose monitor is created or changes its rectangle; and the numbers of an `i32` suffice. -/
def NumberingSafe (wayland : Bool) (s : WMState) : OutputOp → Prop
  | .addMonitor _ _ => s.monitorOrder.length < 2 ^ 31
  | .handleOutputRemoved _ _ => True
  | .updategeom _ _ _ _ outputs => outputs.length ≤ 1 ∨
      ((plannedOutputs wayland s outputs).length ≤ 2 ^ 31 ∧
        ∀ i j m, KeepsRect s (plannedOutputs wayland s outputs) i m → j < (plannedOutputs wayland s outputs).length →
          m.num = j → ∃ m', KeepsRect s (plannedOutputs wayland s outputs) j m')

section Steps

variable {cfg : MonitorConfig} {wayland : Bool} {ctx : HotplugContext} {s : WMState}

theorem entries_length (h : s.Ordered) : s.monitors.entries.length = s.monitorOrder.length := by
  have hperm : s.monitors.keys.Perm s.monitorOrder := by
    refine (perm_ext_iff_of_nodup s.monitors.nodup h.nodup).2 fun k => ?_
    show k ∈ s.monitors.keys ↔ _
    rw [h.mem k, KeyMap.mem_keys]
    constructor
    · rintro ⟨m, hm⟩
      exact ⟨_, face_eq_some.2 ⟨m, hm, rfl⟩⟩
    · rintro ⟨f, hf⟩
      obtain ⟨m, hm, -⟩ := face_eq_some.1 hf
      exact ⟨m, hm⟩
  rw [← hperm.length_eq, KeyMap.keys, length_map]

theorem face_addMonitor (cfg : MonitorConfig) (s : WMState) (key : MonitorKey) (info : OutputInfo) (k : MonitorKey) :
    (addMonitor cfg s key info).face k = if k = key then
      some (lowestUnusedMonitorNum (s.monitors.entries.map (·.2.num)), info.rect) else s.face k := by
  show (insertMonitor s key _).face k = _
  rw [face_insertMonitor]
  split
  · show some ((WMMonitor.createmonNumbered cfg _ _).num, _) = _
    rw [createmonNumbered_num]
    rfl
  · rfl

variable {key : MonitorKey}

theorem numbered_addMonitor (cfg : MonitorConfig) (h : Numbered s) (hk : s.face key = none) (info : OutputInfo) :
    Numbered (addMonitor cfg s key info) := by
  have hord : (addMonitor cfg s key info).Ordered := by
    have hins := ordered_insertMonitor h.toOrdered hk
      ((WMMonitor.createmonNumbered cfg (lowestUnusedMonitorNum (s.monitors.entries.map (·.2.num))) info.seedKey).setRect
        info.rect)
    exact ⟨hins.nodup, hins.mem⟩
  refine ⟨hord, fun k f hf => ?_⟩
  rw [face_addMonitor] at hf
  split at hf
  · cases hf
    exact firstGap_le_max _ (by decide)
  · exact h.le_max k f hf

theorem unique_addMonitor (h : Numbered s) (hu : NumbersUnique s) (hk : s.face key = none)
    (info : OutputInfo) : NumbersUnique (addMonitor cfg s key info) ↔ s.monitorOrder.length < 2 ^ 31 := by
  constructor
  · intro hu'
    have := length_le_of_unique (numbered_addMonitor cfg h hk info) hu'
    have hlen : (addMonitor cfg s key info).monitorOrder.length = s.monitorOrder.length + 1 := by
      show (s.monitorOrder ++ [key]).length = _
      simp
    omega
  · intro hlt
    rw [← entries_length h.toOrdered] at hlt
    have hlen : (s.monitors.entries.map (·.2.num)).length < 2 ^ 31 := by rw [length_map]; exact hlt
    obtain ⟨h0, hnot⟩ := lowestUnusedMonitorNum_spec hlen
    have old : ∀ k f, s.face k = some f → f.1 ≠ lowestUnusedMonitorNum (s.monitors.entries.map (·.2.num)) := by
      intro k f hf e
      obtain ⟨m, hm, rfl⟩ := face_eq_some.1 hf
      exact hnot (List.mem_map.2 ⟨(k, m), get?_eq_some.1 hm, e⟩)
    rw [numbersUnique_iff_face] at hu ⊢
    intro k f hf
    rw [face_addMonitor] at hf
    split at hf
    · rename_i hkk
      cases hf
      refine ⟨h0, fun k' f' hf' e => ?_⟩
      rw [face_addMonitor] at hf'
      split at hf'
      · rename_i hk'; rw [hk', hkk]
      · exact absurd e (old k' f' hf')
    · refine ⟨(hu k f hf).1, fun k' f' hf' e => ?_⟩
      rw [face_addMonitor] at hf'
      split at hf'
      · cases hf'
        exact absurd e.symm (old k f hf)
      · exact (hu k f hf).2 k' f' hf' e

theorem numbered_retireMonitor (h : Numbered s) (ctx : HotplugContext) (key : MonitorKey) :
    Numbered (retireMonitor ctx s key) := by
  refine ⟨ordered_retireMonitor h.toOrdered ctx key, fun k f hf => ?_⟩
  rw [face_retireMonitor] at hf
  split at hf
  · cases hf
  · exact h.le_max k f hf

theorem unique_retireMonitor (hu : NumbersUnique s) (ctx : HotplugContext) (key : MonitorKey) :
    NumbersUnique (retireMonitor ctx s key) := by
  rw [numbersUnique_iff_face] at hu ⊢
  have sub : ∀ k f, (retireMonitor ctx s key).face k = some f → s.face k = some f := by
    intro k f hf
    rw [face_retireMonitor] at hf
    split at hf
    · cases hf
    · exact hf
  intro k f hf
  exact ⟨(hu k f (sub k f hf)).1, fun k' f' hf' e => (hu k f (sub k f hf)).2 k' f' (sub k' f' hf') e⟩

theorem refreshedNumber_cases (h : Numbered s) (planned : List OutputInfo) (i : Nat) :
    (∃ m, KeepsRect s planned i m ∧ refreshedNumber s planned i = m.num) ∨
      ((¬ ∃ m, KeepsRect s planned i m) ∧ refreshedNumber s planned i = asI32 i) := by
  unfold refreshedNumber KeepsRect
  cases hk : s.monitorOrder[i]? with
  | none => exact .inr ⟨by simp, by simp⟩
  | some key =>
    obtain ⟨f, hf⟩ := (h.mem key).1 (mem_of_getElem? hk)
    obtain ⟨m, hm, rfl⟩ := face_eq_some.1 hf
    cases ho : planned[i]? with
    | none => exact .inr ⟨by simp, by simp⟩
    | some o =>
      simp only [bind_some, hf]
      by_cases hr : m.rect = o.rect
      · rw [if_pos hr]
        exact .inl ⟨m, ⟨key, o, rfl, hm, rfl, hr⟩, rfl⟩
      · rw [if_neg hr]
        refine .inr ⟨?_, rfl⟩
        rintro ⟨m', key', o', hkey, hm', ho', hr'⟩
        cases hkey
        cases ho'
        rw [hm] at hm'
        cases hm'
        exact hr hr'

theorem refreshedNumber_le_max (h : Numbered s) (planned : List OutputInfo) (i : Nat) :
    refreshedNumber s planned i ≤ I32.max := by
  rcases refreshedNumber_cases h planned i with ⟨m, ⟨key, o, -, hm, -, -⟩, e⟩ | ⟨-, e⟩
  · rw [e]
    exact h.le_max key _ (face_eq_some.2 ⟨m, hm, rfl⟩)
  · rw [e]
    exact asI32_le_max i

theorem numbered_of_positions (h : s.Ordered) {num : Nat → Int} (hmax : ∀ i, num i ≤ I32.max)
    (hnum : ∀ i k, s.monitorOrder[i]? = some k → (s.face k).map Prod.fst = some (num i)) : Numbered s := by
  refine ⟨h, fun k f hf => ?_⟩
  obtain ⟨i, hi⟩ := mem_iff_getElem?.1 ((h.mem k).2 ⟨f, hf⟩)
  have := hnum i k hi
  rw [hf, map_some, some.injEq] at this
  rw [this]
  exact hmax i

/-- Refreshed numbers clash exactly when a monitor that keeps its number has that of a position that
is renumbered. -/
theorem unique_setupMultipleMonitors (cfg : MonitorConfig) (ctx : HotplugContext) (h : Numbered s) (hu : NumbersUnique s)
    {fresh : Nat → MonitorKey} (hf : FreshKeys s fresh) (planned : List OutputInfo) :
    Numbered (setupMultipleMonitors cfg ctx s fresh planned).1 ∧
    (NumbersUnique (setupMultipleMonitors cfg ctx s fresh planned).1 ↔
      planned.length ≤ 2 ^ 31 ∧ ∀ i j m, KeepsRect s planned i m → j < planned.length → m.num = j →
        ∃ m', KeepsRect s planned j m') := by
  obtain ⟨hord, hlen, hnum⟩ := setupMultipleMonitors_spec cfg ctx h.toOrdered hf planned
  generalize (setupMultipleMonitors cfg ctx s fresh planned).1 = s' at hord hlen hnum
  have hnumbered : Numbered s' := numbered_of_positions hord (refreshedNumber_le_max h planned) hnum
  refine ⟨hnumbered, ?_⟩
  constructor
  · intro hu'
    have hmax := length_le_of_unique hnumbered hu'
    rw [hlen] at hmax
    refine ⟨hmax, fun i j m hi hj hmj => ?_⟩
    rw [numbersUnique_iff_positions hord hnum, hlen] at hu'
    by_contra hno
    have hilt : i < planned.length := by
      obtain ⟨key, o, -, -, ho, -⟩ := hi
      exact (List.getElem?_eq_some_iff.1 ho).1
    have hi' : refreshedNumber s planned i = j := by
      rcases refreshedNumber_cases h planned i with ⟨m', hm', e⟩ | ⟨hno', -⟩
      · obtain ⟨key, o, hkey, hm, -, -⟩ := hi
        obtain ⟨key', o', hkey', hm', -, -⟩ := hm'
        rw [hkey] at hkey'
        cases hkey'
        rw [hm] at hm'
        cases hm'
        rw [e, hmj]
      · exact absurd ⟨m, hi⟩ hno'
    have hj' : refreshedNumber s planned j = j := by
      rcases refreshedNumber_cases h planned j with ⟨m', hm', -⟩ | ⟨-, e⟩
      · exact absurd ⟨m', hm'⟩ hno
      · rw [e, asI32_of_lt (by omega)]
    have hij := (hu' j hj).2 i hilt (hi'.trans hj'.symm)
    exact hno ⟨m, hij ▸ hi⟩
  · rintro ⟨hmax, hsafe⟩
    rw [numbersUnique_iff_positions hord hnum, hlen]
    intro i hi
    have value : ∀ j < planned.length,
        (∃ key o m, s.monitorOrder[j]? = some key ∧ s.monitors.get? key = some m ∧ planned[j]? = some o ∧
          m.rect = o.rect ∧ refreshedNumber s planned j = m.num) ∨
        ((¬ ∃ m, KeepsRect s planned j m) ∧ refreshedNumber s planned j = j) := by
      intro j hj
      rcases refreshedNumber_cases h planned j with ⟨m, ⟨key, o, hk, hm, ho, hr⟩, e⟩ | ⟨hno, e⟩
      · exact .inl ⟨key, o, m, hk, hm, ho, hr, e⟩
      · exact .inr ⟨hno, by rw [e, asI32_of_lt (by omega)]⟩
    constructor
    · rcases value i hi with ⟨key, o, m, -, hm, -, -, e⟩ | ⟨-, e⟩
      · rw [e]; exact (hu key m hm).1
      · rw [e]; omega
    · intro j hj he
      rcases value i hi with ⟨key, o, m, hk, hm, ho, hr, e⟩ | ⟨hno, e⟩ <;>
        rcases value j hj with ⟨key', o', m', hk', hm', ho', hr', e'⟩ | ⟨hno', e'⟩
      · rw [e, e'] at he
        have hkey := (hu key m hm).2 key' m' hm' he
        subst hkey
        exact (getElem?_inj (List.getElem?_eq_some_iff.1 hk').1 h.nodup).1 (hk'.trans hk.symm)
      · rw [e, e'] at he
        exact absurd (hsafe i j m ⟨key, o, hk, hm, ho, hr⟩ hj he.symm) hno'
      · rw [e, e'] at he
        exact absurd (hsafe j i m' ⟨key', o', hk', hm', ho', hr'⟩ hi he) hno
      · rw [e, e'] at he
        omega

/-- The order is right and the numbers are those of an `i32` that is not negative. -/
structure InI32 (s : WMState) : Prop extends s.Ordered where
  range : ∀ k f, s.face k = some f → 0 ≤ f.1 ∧ f.1 ≤ I32.max

theorem InI32.single (h : InI32 s) (hlen : s.monitorOrder.length ≤ 1) : Numbered s ∧ NumbersUnique s := by
  refine ⟨⟨h.toOrdered, fun k f hf => (h.range k f hf).2⟩, ?_⟩
  rw [numbersUnique_iff_face]
  intro k f hf
  refine ⟨(h.range k f hf).1, fun k' f' hf' _ => ?_⟩
  have hk := (h.mem k).2 ⟨f, hf⟩
  have hk' := (h.mem k').2 ⟨f', hf'⟩
  match he : s.monitorOrder with
  | [] => rw [he] at hk; cases hk
  | [a] =>
    rw [he, mem_singleton] at hk hk'
    rw [hk, hk']
  | a :: b :: l =>
    rw [he, length_cons, length_cons] at hlen
    omega

theorem inI32_insertSeededMonitor (cfg : MonitorConfig) (h : InI32 s) (he : s.monitorOrder = [])
    (hk : s.face key = none) (connector : Option String) : InI32 (insertSeededMonitor cfg s key connector) := by
  refine ⟨ordered_insertMonitor h.toOrdered hk _, fun k f hf => ?_⟩
  rw [insertSeededMonitor, face_insertMonitor] at hf
  split at hf
  · cases hf
    rw [createmonNumbered_num, he]
    have hzero : asI32 0 = 0 := by decide
    exact ⟨hzero.ge, hzero.le.trans (by decide)⟩
  · exact h.range k f hf

theorem inI32_refreshMonitor (ctx : HotplugContext) (h : InI32 s) (position : Nat) (target : Rect) :
    InI32 (refreshMonitor ctx s position 0 target).1 := by
  obtain ⟨horder, hface⟩ := refreshMonitor_spec ctx s position 0 target
  refine ⟨⟨horder ▸ h.nodup, fun k => ?_⟩, fun k f hf => ?_⟩
  · rw [horder, h.mem k, hface]
    split
    · constructor
      · rintro ⟨f, hf⟩; exact ⟨_, by rw [hf]; rfl⟩
      · rintro ⟨f, hf⟩
        obtain ⟨f', hf', -⟩ := map_eq_some_iff.1 hf
        exact ⟨f', hf'⟩
    · exact Iff.rfl
  · rw [hface] at hf
    split at hf
    · obtain ⟨f', hf', rfl⟩ := map_eq_some_iff.1 hf
      split
      · exact h.range k f' hf'
      · exact ⟨le_refl (0 : Int), (by decide : (0 : Int) ≤ I32.max)⟩
    · exact h.range k f hf

theorem unique_setupSingleMonitor (cfg : MonitorConfig) (ctx : HotplugContext) (h : Numbered s) (hu : NumbersUnique s)
    (hk : s.face key = none) (target : Rect) (connector : Option String) :
    Numbered (setupSingleMonitor cfg ctx s key target connector).1 ∧
      NumbersUnique (setupSingleMonitor cfg ctx s key target connector).1 := by
  have h32 : InI32 s :=
    ⟨h.toOrdered, fun k f hf => ⟨(numbersUnique_iff_face.1 hu k f hf).1, h.le_max k f hf⟩⟩
  have finish : ∀ {s1 : WMState}, InI32 s1 → ∀ created,
      let s2 := (refreshMonitor ctx s1 0 0 target).1
      let r := if s2.monitorOrder.length > 1 then (removeExcessMonitors ctx s2 1, true) else (s2, created)
      Numbered r.1 ∧ NumbersUnique r.1 := by
    intro s1 h1 created
    have h2 := inI32_refreshMonitor ctx h1 0 target
    simp only
    split
    · have hfirst := keepsFirst_removeExcessMonitors h2.toOrdered ctx 1
      refine InI32.single ⟨hfirst.ordered h2.toOrdered, fun k f hf => ?_⟩ ?_
      · rw [hfirst.face] at hf
        split at hf
        · exact h2.range k f hf
        · cases hf
      · rw [hfirst.order, length_take]
        omega
    · exact h2.single (by omega)
  unfold setupSingleMonitor
  by_cases he : s.monitorOrder.isEmpty = true
  · simp only [if_pos he]
    have h1 := inI32_insertSeededMonitor cfg h32 (isEmpty_iff.1 he) hk connector
    have h1' : InI32 { insertSeededMonitor cfg s key connector with selMon := some key } :=
      ⟨⟨h1.nodup, h1.mem⟩, h1.range⟩
    exact finish h1' _
  · simp only [if_neg he]
    exact finish h32 _

theorem sameFaces_updategeom (cfg : MonitorConfig) (wayland : Bool) (ctx : HotplugContext) (s : WMState)
    (fresh : Nat → MonitorKey) (screen : Rect) (rootMon : Option MonitorKey) (outputs : List OutputInfo) :
    SameFaces
      (if outputs.length ≤ 1 then
        setupSingleMonitor cfg ctx s (fresh 0) ((outputs.head?.map (·.rect)).getD screen) (outputs.head?.bind (·.seedKey))
      else setupMultipleMonitors cfg ctx s fresh (plannedOutputs wayland s outputs)).1
      (updategeom cfg wayland ctx s fresh screen rootMon outputs) := by
  unfold updategeom
  generalize (if outputs.length ≤ 1 then
    setupSingleMonitor cfg ctx s (fresh 0) ((outputs.head?.map (·.rect)).getD screen) (outputs.head?.bind (·.seedKey))
    else setupMultipleMonitors cfg ctx s fresh (plannedOutputs wayland s outputs)) = r
  obtain ⟨s1, dirty⟩ := r
  have hmap : SameFaces s1 (reconcileOutputMap s1 outputs) := by
    unfold reconcileOutputMap
    split
    · exact .refl s1
    · exact .of_monitors rfl rfl
  simp only
  split
  · exact hmap.trans (.of_monitors rfl rfl)
  · exact hmap

/-- The order and the range of the numbers are kept, and the numbers stay unique exactly when the
operation is safe. -/
theorem numbers_performOutputOp (cfg : MonitorConfig) (wayland : Bool) (h : Numbered s) (hu : NumbersUnique s) {op : OutputOp}
    (hk : HandsOutKeys s op) :
    Numbered (performOutputOp cfg wayland s op).1 ∧
      (NumbersUnique (performOutputOp cfg wayland s op).1 ↔ NumberingSafe wayland s op) := by
  have free : ∀ {k}, s.monitors.get? k = none → s.face k = none := fun e => by rw [WMState.face, e]; rfl
  cases op with
  | addMonitor key info =>
    exact ⟨numbered_addMonitor cfg h (free hk) info, unique_addMonitor h hu (free hk) info⟩
  | handleOutputRemoved ctx id =>
    show Numbered (handleOutputRemoved ctx s id) ∧ (NumbersUnique (handleOutputRemoved ctx s id) ↔ True)
    unfold handleOutputRemoved
    split
    · exact ⟨h, iff_true_intro hu⟩
    · exact ⟨numbered_retireMonitor h ctx _, iff_true_intro (unique_retireMonitor hu ctx _)⟩
  | updategeom ctx fresh screen rootMon outputs =>
    have hfresh : FreshKeys s fresh := ⟨hk.1, fun i => free (hk.2 i)⟩
    have same := sameFaces_updategeom cfg wayland ctx s fresh screen rootMon outputs
    show Numbered (updategeom cfg wayland ctx s fresh screen rootMon outputs) ∧
      (NumbersUnique (updategeom cfg wayland ctx s fresh screen rootMon outputs) ↔
        outputs.length ≤ 1 ∨ _)
    rw [same.numbersUnique_iff]
    by_cases hl : outputs.length ≤ 1
    · rw [if_pos hl] at same ⊢
      obtain ⟨hn, hun⟩ := unique_setupSingleMonitor cfg ctx h hu (hfresh.free 0)
        ((outputs.head?.map (·.rect)).getD screen) (outputs.head?.bind (·.seedKey))
      exact ⟨same.numbered hn, iff_of_true hun (.inl hl)⟩
    · rw [if_neg hl] at same ⊢
      obtain ⟨hn, hun⟩ := unique_setupMultipleMonitors cfg ctx h hu hfresh (plannedOutputs wayland s outputs)
      exact ⟨same.numbered hn, hun.trans (or_iff_right hl).symm⟩

end Steps

/-! ## Runs -/

section Runs

variable {cfg : MonitorConfig} {wayland : Bool}

theorem numbers_run : ∀ {ops : List OutputOp} {s : WMState}, Numbered s → NumbersUnique s →
    Along HandsOutKeys (performOutputOp cfg wayland) s ops →
    ((∀ k, NumbersUnique (after (performOutputOp cfg wayland) s (ops.take k))) ↔
      Along (NumberingSafe wayland) (performOutputOp cfg wayland) s ops)
  | [], s, _, hu, _ => ⟨fun _ => trivial, fun _ k => by rw [take_nil]; exact hu⟩
  | op :: ops, s, h, hu, hk => by
    obtain ⟨hn, hsafe⟩ := numbers_performOutputOp cfg wayland h hu hk.1
    constructor
    · intro hall
      have hu' : NumbersUnique (performOutputOp cfg wayland s op).1 := hall 1
      exact ⟨hsafe.1 hu', (numbers_run hn hu' hk.2).1 fun k => hall (k + 1)⟩
    · rintro ⟨hop, hrest⟩ k
      cases k with
      | zero => exact hu
      | succ k => exact (numbers_run hn (hsafe.2 hop) hk.2).2 hrest k

/-- Starting without monitors, the numbers of the live monitors are unique and not negative in every state of a run exactly
when no refresh renumbers a position whose number is held by a monitor that keeps its rectangle, and there are never more
monitors than numbers. -/
theorem monitor_numbers_unique_iff {s : WMState} (hm : s.monitors.entries = []) (ho : s.monitorOrder = [])
    {ops : List OutputOp} (hk : Along HandsOutKeys (performOutputOp cfg wayland) s ops) :
    (∀ k, NumbersUnique (after (performOutputOp cfg wayland) s (ops.take k))) ↔
      Along (NumberingSafe wayland) (performOutputOp cfg wayland) s ops := by
  have none_live : ∀ k, s.monitors.get? k = none := by
    intro k
    rw [KeyMap.get?, hm]
    rfl
  have hface : ∀ k, s.face k = none := fun k => by rw [WMState.face, none_live]; rfl
  have hord : s.Ordered := by
    refine ⟨by rw [ho]; exact nodup_nil, fun k => ?_⟩
    rw [ho, hface]
    exact iff_of_false not_mem_nil (by rintro ⟨f, hf⟩; cases hf)
  refine numbers_run ⟨hord, fun k f hf => ?_⟩ (fun k m hm' => ?_) hk
  · rw [hface] at hf; cases hf
  · rw [none_live] at hm'; cases hm'

end Runs

namespace Sample

def plainConfig : MonitorConfig where
  showBar := true
  tagsLength := 1
  layoutDefaults := { mFact := 0.55, nMaster := 1, gap := 0 }
  hasLayoutTags := false
  layoutForTagOnOutput := fun _ _ _ => none

def noClients : HotplugContext where
  locked := fun _ => false
  scratchpads := []
  tagmask := 1
  bars := []
  retired := fun _ => none
  place := fun _ g => g

def noMonitors : WMState where
  clients := .empty
  monitors := .empty
  monitorClients := .empty
  monitorStack := .empty

def screenAt (id : OutputId) (x w : Int) : OutputInfo := { id := id, rect := ⟨x, 0, w, 1080⟩, stableKey := "", connector := "" }

def freshKey (i : Nat) : MonitorKey := ⟨i + 10, 1⟩

def unplugFirst : List OutputOp :=
  [.addMonitor ⟨1, 1⟩ (screenAt 1 0 1920), .addMonitor ⟨2, 1⟩ (screenAt 2 1920 1920),
    .addMonitor ⟨3, 1⟩ (screenAt 3 3840 1920), .handleOutputRemoved noClients 1]

/-- The display is refreshed; the last output has the given width. -/
def refreshLast (w : Int) : OutputOp :=
  .updategeom noClients freshKey ⟨0, 0, 1920, 1080⟩ none [screenAt 2 1920 1920, screenAt 3 3840 w]

theorem unplugFirst_keys (w : Int) :
    Along HandsOutKeys (performOutputOp plainConfig false) noMonitors (unplugFirst ++ [refreshLast w]) := by
  refine ⟨get?_eq_none.2 (by decide), get?_eq_none.2 (by decide),
    get?_eq_none.2 (by decide), trivial, ⟨?_, fun i => ?_⟩, trivial⟩
  · intro i j h
    simpa [freshKey] using h
  · rw [get?_eq_none]
    intro hk
    have hkeys : (after (performOutputOp plainConfig false) noMonitors unplugFirst).monitors.keys =
        [⟨2, 1⟩, ⟨3, 1⟩] := by decide
    have hk : freshKey i ∈ (after (performOutputOp plainConfig false) noMonitors unplugFirst).monitors.keys := hk
    rw [hkeys] at hk
    simp [freshKey] at hk

theorem unplugFirst_safe :
    Along (NumberingSafe false) (performOutputOp plainConfig false) noMonitors (unplugFirst ++ [refreshLast 1920]) := by
  have hfew : ∀ n < 3, n < 2 ^ 31 := by decide
  refine ⟨hfew 0 (by decide), hfew 1 (by decide), hfew 2 (by decide), trivial, .inr ⟨by decide, fun i j m _ hj _ => ?_⟩, trivial⟩
  have hj : j < 2 := hj
  obtain rfl | rfl : j = 0 ∨ j = 1 := by omega
  · exact ⟨_, _, _, rfl, rfl, rfl, rfl⟩
  · exact ⟨_, _, _, rfl, rfl, rfl, rfl⟩

end Sample

open Sample

/-- An unchanged display is refreshed after the first of three outputs was unplugged. -/
theorem monitor_numbers_unique_sample :
    Along (NumberingSafe false) (performOutputOp plainConfig false) noMonitors (unplugFirst ++ [refreshLast 1920]) ∧
      ∀ k, NumbersUnique (after (performOutputOp plainConfig false) noMonitors ((unplugFirst ++ [refreshLast 1920]).take k)) :=
  ⟨unplugFirst_safe, (monitor_numbers_unique_iff rfl rfl (unplugFirst_keys 1920)).2 unplugFirst_safe⟩

/-- The remaining monitors are 1 and 2. When the second changes its mode it becomes number 1 too. -/
theorem monitor_numbers_clash :
    Along HandsOutKeys (performOutputOp Sample.plainConfig false) Sample.noMonitors
      (Sample.unplugFirst ++ [Sample.refreshLast 2560]) ∧
    ¬ NumbersUnique (after (performOutputOp Sample.plainConfig false) Sample.noMonitors
      (Sample.unplugFirst ++ [Sample.refreshLast 2560])) := by
  refine ⟨unplugFirst_keys 2560, fun hu => ?_⟩
  generalize hs : after (performOutputOp plainConfig false) noMonitors
    (unplugFirst ++ [refreshLast 2560]) = s at hu
  have h2 : (s.monitors.get? ⟨2, 1⟩).map (·.num) = some 1 := by rw [← hs]; decide +kernel
  have h3 : (s.monitors.get? ⟨3, 1⟩).map (·.num) = some 1 := by rw [← hs]; decide +kernel
  obtain ⟨m2, hm2, e2⟩ := map_eq_some_iff.1 h2
  obtain ⟨m3, hm3, e3⟩ := map_eq_some_iff.1 h3
  have := (hu ⟨2, 1⟩ m2 hm2).2 ⟨3, 1⟩ m3 hm3 (e3.trans e2.symm)
  cases this

end Jwm
