/-
Lists read as orders: the member after a given one, taking a member out and putting it back in
front of its successor, and lists in two blocks (the members that fail a test, then those that
pass it).
-/
import Mathlib.Algebra.Ring.Nat
import Mathlib.Data.List.InsertIdx
import Mathlib.Data.List.Nodup

namespace Jwm

open List

variable {α : Type}

/-! ## Positions -/

theorem insertIdx_append_length (l r : List α) (a : α) : (l ++ r).insertIdx l.length a = l ++ a :: r := by
  induction l with
  | nil => simp
  | cons x l ih => simpa using ih

theorem insertIdx_eq_take_drop : ∀ (l : List α) (i : Nat) (a : α), i ≤ l.length →
    l.insertIdx i a = l.take i ++ a :: l.drop i
  | l, 0, a, _ => by simp
  | [], i + 1, a, h => by simp at h
  | x :: l, i + 1, a, h => by simpa using insertIdx_eq_take_drop l i a (by simpa using h)

variable {a x : α} {r t pending : List α} {i : Nat}

theorem find?_unique {p : α → Bool} {l : List α} (ha : a ∈ l) (hp : p a = true)
    (hu : ∀ x ∈ l, p x = true → x = a) : l.find? p = some a := by
  cases h : l.find? p with
  | none => rw [find?_eq_none] at h; exact absurd hp (h a ha)
  | some x => rw [hu x (mem_of_find?_eq_some h) (find?_some h)]

theorem nodup_cons_not_mem_left {l : List α} {k : α} (h : (l ++ k :: r).Nodup) : k ∉ l :=
  fun hl => (nodup_append.1 h).2.2 k hl k (by simp) rfl

theorem nodup_eraseDups [DecidableEq α] : ∀ l : List α, l.eraseDups.Nodup
  | [] => by simp
  | a :: l => by
    rw [eraseDups_cons, nodup_cons]
    refine ⟨fun ha => ?_, nodup_eraseDups _⟩
    rw [mem_eraseDups, mem_filter] at ha
    simp at ha
termination_by l => l.length
decreasing_by exact Nat.lt_succ_of_le (length_filter_le _ _)

theorem exists_last_split {p : α → Prop} : ∀ {order : List α}, (∃ y ∈ order, p y) →
    ∃ l k r, order = l ++ k :: r ∧ p k ∧ ∀ x ∈ r, ¬ p x
  | [], ⟨_, hy, _⟩ => by cases hy
  | z :: order, ⟨y, hy, hp⟩ => by
    by_cases h : ∃ y ∈ order, p y
    · obtain ⟨l, k, r, rfl, hk, hr⟩ := exists_last_split h
      exact ⟨z :: l, k, r, rfl, hk, hr⟩
    · push Not at h
      rcases mem_cons.1 hy with rfl | hy
      · exact ⟨[], y, order, rfl, hp, h⟩
      · exact absurd hp (h y hy)

/-- A member of a part stands between what the part has before it and what it has after it. -/
theorem exists_split_of_filter {p : α → Bool} : ∀ {l : List α} {j : Nat} {a : α}, (l.filter p)[j]? = some a →
    ∃ before after, l = before ++ a :: after ∧ (before.filter p).length = j ∧ p a = true
  | x :: l, j, a, h => by
    by_cases hx : p x = true
    · rw [filter_cons_of_pos hx] at h
      cases j with
      | zero =>
        obtain rfl := Option.some.inj h
        exact ⟨[], l, rfl, rfl, hx⟩
      | succ j =>
        obtain ⟨before, after, rfl, hlen, ha⟩ := exists_split_of_filter (l := l) h
        exact ⟨x :: before, after, rfl, by rw [filter_cons_of_pos hx, length_cons, hlen], ha⟩
    · rw [filter_cons_of_neg hx] at h
      obtain ⟨before, after, rfl, hlen, ha⟩ := exists_split_of_filter (l := l) h
      exact ⟨x :: before, after, rfl, by rw [filter_cons_of_neg hx, hlen], ha⟩

/-! ## Two blocks -/

/-- The members that fail `f`, then those that pass it. -/
def Grouped (f : α → Bool) (l : List α) : Prop := l.Pairwise fun a b => f a = true → f b = true

section

variable {f : α → Bool}

theorem grouped_iff {l : List α} :
    Grouped f l ↔ ∃ t r, l = t ++ r ∧ (∀ x ∈ t, f x = false) ∧ ∀ x ∈ r, f x = true := by
  constructor
  · intro h
    induction l with
    | nil => exact ⟨[], [], rfl, by simp, by simp⟩
    | cons x l ih =>
      obtain ⟨hx, hl⟩ := pairwise_cons.1 h
      cases hf : f x with
      | true => exact ⟨[], x :: l, rfl, by simp, fun y hy => by
          rcases mem_cons.1 hy with rfl | hy
          · exact hf
          · exact hx y hy hf⟩
      | false =>
        obtain ⟨t, r, rfl, ht, hr⟩ := ih hl
        refine ⟨x :: t, r, rfl, fun y hy => ?_, hr⟩
        rcases mem_cons.1 hy with rfl | hy
        · exact hf
        · exact ht y hy
  · rintro ⟨t, r, rfl, ht, hr⟩
    refine pairwise_append.2 ⟨?_, ?_, fun a ha b hb h => hr b hb⟩
    · exact List.Pairwise.imp_of_mem (R := fun _ _ => True) (fun ha _ _ h => by rw [ht _ ha] at h; cases h)
        (pairwise_of_forall fun _ _ => trivial)
    · exact List.Pairwise.imp_of_mem (R := fun _ _ => True) (fun _ hb _ _ => hr _ hb)
        (pairwise_of_forall fun _ _ => trivial)

theorem Grouped.eq_filter {l : List α} (h : Grouped f l) : l = l.filter (!f ·) ++ l.filter f := by
  obtain ⟨t, r, rfl, ht, hr⟩ := grouped_iff.1 h
  have h1 : t.filter (!f ·) = t := filter_eq_self.2 fun x hx => by simp [ht x hx]
  have h2 : r.filter (!f ·) = [] := filter_eq_nil_iff.2 fun x hx => by simp [hr x hx]
  have h3 : t.filter f = [] := filter_eq_nil_iff.2 fun x hx => by simp [ht x hx]
  have h4 : r.filter f = r := filter_eq_self.2 hr
  rw [filter_append, filter_append, h1, h2, h3, h4, append_nil, nil_append]

/-- The first member that passes `f`, or the end, is where the second block starts. -/
theorem boundary_append (ht : ∀ x ∈ t, f x = false) (hr : ∀ x ∈ r, f x = true) :
    ((t ++ r).findIdx? f).getD (t ++ r).length = t.length := by
  have h0 : t.findIdx? f = none := by simpa using ht
  rw [findIdx?_append, h0]
  cases r with
  | nil => simp
  | cons x r => simp [findIdx?_cons, hr x (by simp)]

/-- Inserting at the boundary joins the end of the first block and the head of the second. -/
theorem insert_boundary (k : α) (ht : ∀ x ∈ t, f x = false) (hr : ∀ x ∈ r, f x = true) :
    (t ++ r).insertIdx (((t ++ r).findIdx? f).getD (t ++ r).length) k = t ++ k :: r := by
  rw [boundary_append ht hr, insertIdx_append_length]

/-- A place where `k` may join a list in two blocks: inside the block it belongs to. -/
structure Slot (f : α → Bool) (l : List α) (k : α) (i : Nat) : Prop where
  le : i ≤ l.length
  first : f k = false → i ≤ (l.findIdx? f).getD l.length
  second : f k = true → (l.findIdx? f).getD l.length ≤ i

theorem Grouped.insertIdx {f : α → Bool} {l : List α} {k : α} (h : Grouped f l) (hs : Slot f l k i) :
    Grouped f (l.insertIdx i k) := by
  have hle := hs.le
  obtain ⟨t, r, rfl, ht, hr⟩ := grouped_iff.1 h
  have hb := boundary_append ht hr
  rw [insertIdx_eq_take_drop _ _ _ hle]
  refine pairwise_append.2 ⟨h.sublist (take_sublist _ _), pairwise_cons.2 ⟨?_, ?_⟩, ?_⟩
  · intro x hx hk
    -- `k` joins the second block, so what follows it is the rest of that block
    have hi := hb ▸ hs.second hk
    rw [drop_append, drop_eq_nil_of_le hi, nil_append] at hx
    exact hr x (mem_of_mem_drop hx)
  · exact h.sublist (drop_sublist _ _)
  · intro x hx y hy hfx
    cases hk : f k with
    | true =>
      rcases mem_cons.1 hy with rfl | hy
      · exact hk
      · have hi := hb ▸ hs.second hk
        rw [drop_append, drop_eq_nil_of_le hi, nil_append] at hy
        exact hr y (mem_of_mem_drop hy)
    | false =>
      have hi := hb ▸ hs.first hk
      rw [take_append_of_le_length hi] at hx
      rw [ht x (mem_of_mem_take hx)] at hfx
      cases hfx

theorem slot_boundary (f : α → Bool) (l : List α) (k : α) : Slot f l k ((l.findIdx? f).getD l.length) where
  le := by
    rw [← findIdx_eq_getD_findIdx?]
    exact findIdx_le_length
  first _ := Nat.le_refl _
  second _ := Nat.le_refl _

/-! ## Blocks while members wait for their place -/

/-- In two blocks, the members in `pending` apart. -/
def GroupedBut (f : α → Bool) (pending l : List α) : Prop :=
  l.Pairwise fun a b => a ∉ pending → b ∉ pending → f a = true → f b = true

theorem groupedBut_nil {l : List α} : GroupedBut f [] l ↔ Grouped f l := by
  unfold GroupedBut Grouped
  simp only [not_mem_nil, not_false_eq_true, forall_const]

theorem Grouped.but {l : List α} (h : Grouped f l) (pending : List α) : GroupedBut f pending l :=
  h.imp fun hab _ _ => hab

theorem GroupedBut.push {l : List α} (h : GroupedBut f pending l) {k : α} (hk : k ∈ pending) :
    GroupedBut f pending (l ++ [k]) := by
  refine pairwise_append.2 ⟨h, pairwise_singleton _ _, fun a _ b hb _ hbp => ?_⟩
  rw [mem_singleton] at hb
  exact absurd (hb ▸ hk) hbp

end

/-- A member of the second block moves to the end, one of the first to where the second starts. -/
def regroup [BEq α] (f : α → Bool) (l : List α) (k : α) : List α :=
  if f k then l.erase k ++ [k] else (l.erase k).insertIdx (((l.erase k).findIdx? f).getD (l.erase k).length) k

theorem regroup_perm [DecidableEq α] (f : α → Bool) {l : List α} {k : α} (hk : k ∈ l) : (regroup f l k).Perm l := by
  have herase : (k :: l.erase k).Perm l := (perm_cons_erase hk).symm
  unfold regroup
  split
  · exact (perm_append_singleton k _).trans herase
  · exact (perm_insertIdx _ _ (slot_boundary f _ k).le).trans herase

theorem filter_regroup [DecidableEq α] {f : α → Bool} {l : List α} {k : α} (h : Grouped f (l.erase k)) (b : Bool) :
    (regroup f l k).filter (f · == b) = (l.erase k).filter (f · == b) ++ (if f k = b then [k] else []) := by
  unfold regroup
  split
  · rename_i hk
    rw [filter_append]
    cases b <;> simp [hk]
  · rename_i hk
    obtain ⟨t, r, he, ht, hr⟩ := grouped_iff.1 h
    have hk : f k = false := by simpa using hk
    rw [he, insert_boundary k ht hr, filter_append, filter_cons, filter_append]
    cases b with
    | true => simp [hk]
    | false =>
      have hnone : r.filter (f · == false) = [] := filter_eq_nil_iff.2 fun x hx => by simp [hr x hx]
      rw [hnone, hk, if_pos (beq_self_eq_true false), if_pos rfl, append_nil]

theorem GroupedBut.regroup [DecidableEq α] {f : α → Bool} {l : List α} {k : α} (hn : l.Nodup)
    (h : GroupedBut f (k :: pending) l) : GroupedBut f pending (regroup f l k) := by
  have rest : GroupedBut f pending (l.erase k) := by
    refine List.Pairwise.imp_of_mem ?_ (h.sublist erase_sublist)
    intro a b ha hb hab hap hbp
    have hak : a ≠ k := (hn.mem_erase_iff.1 ha).1
    have hbk : b ≠ k := (hn.mem_erase_iff.1 hb).1
    exact hab (by simp [hak, hap]) (by simp [hbk, hbp])
  unfold Jwm.regroup
  split
  · rename_i hk
    refine pairwise_append.2 ⟨rest, pairwise_singleton _ _, fun a _ b hb _ _ _ => ?_⟩
    rw [mem_singleton] at hb
    rw [hb]
    exact hk
  · rename_i hk
    -- everything before the boundary is in the first block, as `k` is
    rw [insertIdx_eq_take_drop _ _ _ (slot_boundary f _ k).le]
    have hbefore : ∀ a ∈ (l.erase k).take (((l.erase k).findIdx? f).getD (l.erase k).length), f a = false := by
      intro a ha
      rw [← findIdx_eq_getD_findIdx?] at ha
      obtain ⟨i, hi, rfl⟩ := getElem_of_mem ha
      rw [getElem_take]
      rw [length_take] at hi
      exact not_of_lt_findIdx (lt_of_lt_of_le hi (min_le_left _ _))
    refine pairwise_append.2 ⟨rest.sublist (take_sublist _ _), pairwise_cons.2 ⟨?_, ?_⟩, ?_⟩
    · intro b _ _ _ hfk
      exact absurd hfk hk
    · exact rest.sublist (drop_sublist _ _)
    · intro a ha b _ _ _ hfa
      rw [hbefore a ha] at hfa
      cases hfa

/-! ## Successors -/

variable [DecidableEq α]

theorem idxOf?_append_cons {l : List α} {k : α} (h : k ∉ l) : (l ++ k :: r).idxOf? k = some l.length := by
  induction l with
  | nil => simp [idxOf?_cons]
  | cons x l ih =>
    simp only [mem_cons, not_or] at h
    have hx : (x == k) = false := by simpa using fun e => h.1 e.symm
    rw [cons_append, idxOf?_cons, hx]
    simp [ih h.2]

theorem idxOf_erase_ne {l : List α} {k t : α} (hk : k ∈ l) (hne : t ≠ k) :
    (l.erase k).idxOf t = if l.idxOf k < l.idxOf t then l.idxOf t - 1 else l.idxOf t := by
  induction l with
  | nil => cases hk
  | cons x l ih =>
    by_cases hx : x = k
    · subst hx
      rw [erase_cons_head, idxOf_cons_self, idxOf_cons_ne l (fun e => hne e.symm)]
      simp
    · have hx' : k ∈ l := (mem_cons.1 hk).resolve_left fun e => hx e.symm
      rw [erase_cons_tail (by simpa using hx), idxOf_cons_ne l hx]
      by_cases ht : x = t
      · subst ht; simp
      · rw [idxOf_cons_ne _ ht, idxOf_cons_ne _ ht, ih hx']
        split <;> split <;> omega

/-- The member right after `k` in `order`. -/
def nextIn : List α → α → Option α
  | [], _ => none
  | x :: order, k => if x = k then order.head? else nextIn order k

theorem nextIn_append {l : List α} {k : α} (h : k ∉ l) : nextIn (l ++ k :: r) k = r.head? := by
  induction l with
  | nil => simp [nextIn]
  | cons x l ih =>
    simp only [mem_cons, not_or] at h
    rw [cons_append, nextIn, if_neg fun e => h.1 e.symm, ih h.2]

variable {order : List α}

theorem nextIn_mem {k : α} (h : nextIn order k = some a) : a ∈ order := by
  induction order with
  | nil => cases h
  | cons x order ih =>
    rw [nextIn] at h
    split at h
    · exact mem_cons_of_mem _ (mem_of_mem_head? h)
    · exact mem_cons_of_mem _ (ih h)

theorem nextIn_inj (hn : order.Nodup) {k k' : α} (h : nextIn order k = some a) (h' : nextIn order k' = some a) : k = k' := by
  induction order with
  | nil => cases h
  | cons x order ih =>
    rw [nodup_cons] at hn
    have head : ∀ {j}, order.head? = some a → nextIn order j = some a → False := by
      intro j hh hj
      cases order with
      | nil => cases hh
      | cons y order =>
        cases hh
        rw [nodup_cons] at hn
        rw [nextIn] at hj
        split at hj
        · exact hn.2.1 (mem_of_mem_head? hj)
        · exact hn.2.1 (nextIn_mem hj)
    rw [nextIn] at h h'
    split at h <;> split at h'
    · rename_i e e'; exact e.symm.trans e'
    · exact (head h h').elim
    · exact (head h' h).elim
    · exact ih hn.2 h h'

theorem nextIn_asymm (hn : order.Nodup) {k : α} (hx : x ∈ order) (h : nextIn order x = some k) : nextIn order k ≠ some x := by
  obtain ⟨l, r, rfl⟩ := append_of_mem hx
  rw [nextIn_append (nodup_cons_not_mem_left hn)] at h
  cases r with
  | nil => cases h
  | cons y r =>
    cases h
    have e : l ++ x :: k :: r = (l ++ [x]) ++ k :: r := by simp
    rw [e, nextIn_append (nodup_cons_not_mem_left (e ▸ hn))]
    intro hr
    have hxr := (nodup_cons.1 (nodup_append.1 hn).2.1).1
    exact hxr (mem_cons_of_mem _ (mem_of_mem_head? hr))

theorem exists_prev {l b : List α} (hn : (l ++ b ++ r).Nodup) (hx : x ∈ b.tail) : ∃ p ∈ b, nextIn (l ++ b ++ r) p = some x := by
  induction b generalizing l with
  | nil => cases hx
  | cons h b ih =>
    rw [tail_cons] at hx
    cases b with
    | nil => cases hx
    | cons y b =>
      rcases mem_cons.1 hx with rfl | hx
      · refine ⟨h, mem_cons_self .., ?_⟩
        rw [append_assoc, cons_append] at hn ⊢
        rw [nextIn_append (nodup_cons_not_mem_left hn)]
        rfl
      · have e : l ++ (h :: y :: b) ++ r = (l ++ [h]) ++ (y :: b) ++ r := by simp
        obtain ⟨p, hp, hpx⟩ := ih (l := l ++ [h]) (e ▸ hn) (by simpa using hx)
        exact ⟨p, mem_cons_of_mem _ hp, by rw [e]; exact hpx⟩

theorem exists_last (hn : order.Nodup) (hs : ∀ k ∈ pending, k ∈ order) (hp : pending ≠ []) :
    ∃ k ∈ pending, ∀ a, nextIn order k = some a → a ∉ pending := by
  obtain ⟨k0, hk0⟩ := exists_mem_of_ne_nil _ hp
  obtain ⟨l, k, r, rfl, hk, hr⟩ := exists_last_split (p := (· ∈ pending)) ⟨k0, hs k0 hk0, hk0⟩
  refine ⟨k, hk, fun a ha => ?_⟩
  rw [nextIn_append (nodup_cons_not_mem_left hn)] at ha
  exact hr a (mem_of_mem_head? ha)

/-- When `c` leaves the order, whoever it followed is followed by its successor. -/
theorem nextIn_filter_ne (hn : order.Nodup) {c k : α} (hk : k ≠ c) :
    nextIn (order.filter (· != c)) k = if nextIn order k = some c then nextIn order c else nextIn order k := by
  by_cases hm : k ∈ order
  · obtain ⟨l, r, rfl⟩ := append_of_mem hm
    have hkl := nodup_cons_not_mem_left hn
    have hkc : (k != c) = true := by simpa using hk
    have hkl' : k ∉ l.filter (· != c) := fun h => hkl (mem_filter.1 h).1
    rw [filter_append, filter_cons_of_pos (by exact hkc), nextIn_append hkl', nextIn_append hkl]
    cases r with
    | nil => simp
    | cons x r =>
      by_cases hx : x = c
      · subst hx
        have e : l ++ k :: x :: r = (l ++ [k]) ++ x :: r := by simp
        have hxr : x ∉ r := fun h => by
          rw [e, nodup_append, nodup_cons] at hn; exact hn.2.1.1 h
        rw [head?_cons, if_pos rfl, e, nextIn_append (nodup_cons_not_mem_left (e ▸ hn))]
        rw [filter_cons_of_neg (by simp), filter_eq_self.2]
        intro a ha
        simpa using fun he : a = x => hxr (he ▸ ha)
      · rw [filter_cons_of_pos (by simpa using hx), head?_cons, head?_cons, if_neg (by simpa using hx)]
  · have none_of : ∀ {o : List α}, k ∉ o → nextIn o k = none := by
      intro o ho
      induction o with
      | nil => rfl
      | cons x o ih =>
        simp only [mem_cons, not_or] at ho
        rw [nextIn, if_neg fun e => ho.1 e.symm, ih ho.2]
    rw [none_of hm, none_of fun h => hm (mem_filter.1 h).1]
    simp

/-! ## Joining in front of an anchor -/

/-- Where a member joins: in front of the anchor, or at the end of the first block if there is none. -/
def joinIndex (f : α → Bool) (l : List α) (anchor : Option α) : Nat :=
  ((anchor.bind fun a => l.idxOf? a).or (l.findIdx? f)).getD l.length

section Join

variable {f p : α → Bool} {l : List α} {k : α} {j : Nat}

theorem joinIndex_none : joinIndex f l none = (l.findIdx? f).getD l.length := rfl

theorem joinIndex_split {before after : List α} (ha : a ∉ before) :
    joinIndex f (before ++ a :: after) (some a) = before.length := by
  unfold joinIndex
  rw [Option.bind_some, idxOf?_append_cons ha]
  rfl

/-- In front of a member of the first block, or at its end, a member of the first block is in its place. -/
theorem slot_joinIndex (hl : Grouped f l) (hn : l.Nodup) (hp : ∀ x, p x = true → f x = false) (hk : f k = false) :
    Slot f l k (joinIndex f l (l.filter p)[j]?) := by
  cases h : (l.filter p)[j]? with
  | none => exact slot_boundary f l k
  | some a =>
    obtain ⟨before, after, rfl, -, ha⟩ := exists_split_of_filter h
    rw [joinIndex_split (nodup_cons_not_mem_left hn)]
    refine ⟨?_, fun _ => ?_, fun hk' => ?_⟩
    · rw [length_append]
      exact Nat.le_add_right _ _
    · -- the anchor is in the first block, and so is all that stands before it
      rw [← findIdx_eq_getD_findIdx?, findIdx_append, if_neg]
      · exact Nat.le_add_left _ _
      · rw [findIdx_lt_length]
        rintro ⟨x, hx, hfx⟩
        have hfa := (pairwise_append.1 hl).2.2 x hx a (mem_cons_self ..) hfx
        rw [hp a ha] at hfa
        cases hfa
    · rw [hk] at hk'
      cases hk'

/-- A member that joins in front of the part's member at `j` is at `j` in the part. -/
theorem filter_join (hl : Grouped f l) (hn : l.Nodup) (hp : ∀ x, p x = true → f x = false) (hk : p k = true)
    (hj : j ≤ (l.filter p).length) :
    (l.insertIdx (joinIndex f l (l.filter p)[j]?) k).filter p = (l.filter p).insertIdx j k := by
  cases h : (l.filter p)[j]? with
  | none =>
    obtain rfl : j = (l.filter p).length := Nat.le_antisymm hj (List.getElem?_eq_none_iff.1 h)
    obtain ⟨t, r, rfl, ht, hr⟩ := grouped_iff.1 hl
    have hrest : r.filter p = [] := by
      refine filter_eq_nil_iff.2 fun x hx hpx => ?_
      have hfx := hr x hx
      rw [hp x hpx] at hfx
      cases hfx
    rw [joinIndex_none, insert_boundary k ht hr, filter_append, filter_append, filter_cons_of_pos hk,
      hrest, append_nil]
    have happend := insertIdx_append_length (t.filter p) [] k
    rw [append_nil] at happend
    exact happend.symm
  | some a =>
    obtain ⟨before, after, rfl, hlen, -⟩ := exists_split_of_filter h
    rw [joinIndex_split (nodup_cons_not_mem_left hn), insertIdx_append_length, filter_append, filter_append,
      filter_cons_of_pos hk, ← hlen, insertIdx_append_length]

/-- A list in which one member has moved, the part `p` having it at `j` now. -/
structure Reseated (f p : α → Bool) (l : List α) (k : α) (j : Nat) (l' : List α) : Prop where
  perm : l'.Perm l
  grouped : Grouped f l'
  rest : l'.filter (· != k) = l.filter (· != k)
  part : l'.filter p = ((l.filter p).filter (· != k)).insertIdx j k

theorem filter_ne_insertIdx (l : List α) (k : α) (hi : i ≤ l.length) (hk : k ∉ l) : (l.insertIdx i k).filter (· != k) = l := by
  rw [insertIdx_eq_take_drop _ _ _ hi, filter_append, filter_cons_of_neg (by simp), ← filter_append, take_append_drop]
  refine filter_eq_self.2 fun x hx => ?_
  rw [bne_iff_ne]
  rintro rfl
  exact hk hx

/-- A member of the first block taken out and put back in front of the part's member at `j`. -/
theorem reseated (hl : Grouped f (l.filter (· != k))) (hn : l.Nodup) (hmem : k ∈ l) (hp : ∀ x, p x = true → f x = false)
    (hk : p k = true) (hj : j ≤ ((l.filter p).filter (· != k)).length) :
    Reseated f p l k j ((l.filter (· != k)).insertIdx
      (joinIndex f (l.filter (· != k)) ((l.filter p).filter (· != k))[j]?) k) := by
  have hswap : (l.filter p).filter (· != k) = (l.filter (· != k)).filter p := filter_comm ..
  have hnot : k ∉ l.filter (· != k) := by simp
  have hslot := slot_joinIndex hl (hn.filter _) hp (hp k hk) (j := j)
  rw [hswap] at hj ⊢
  refine ⟨?_, hl.insertIdx hslot, filter_ne_insertIdx _ _ hslot.le hnot, ?_⟩
  · rw [← hn.erase_eq_filter]
    rw [← hn.erase_eq_filter] at hslot
    exact (perm_insertIdx _ _ hslot.le).trans (perm_cons_erase hmem).symm
  · rw [hswap]
    exact filter_join hl (hn.filter _) hp hk hj

end Join

end Jwm
