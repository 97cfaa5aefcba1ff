/-
Window flow control with cumulative acknowledgements, in one direction. A sender keeps at most a window of bytes
unacknowledged; chunks travel in order to a receiver, wait in its queue, and are consumed, each with an acknowledgement of
everything consumed so far. Chunks and acknowledgements may be lost, and acknowledgements may arrive in any order.
-/
import Mathlib.Algebra.Ring.Nat
import Mathlib.Logic.Relation

namespace Jwm

variable {τ : Type}

def chunkBytes (chunks : List (τ × Nat)) : Nat := (chunks.map Prod.snd).sum

@[simp] theorem chunkBytes_nil : chunkBytes ([] : List (τ × Nat)) = 0 := rfl

@[simp] theorem chunkBytes_cons (c : τ × Nat) (chunks : List (τ × Nat)) : chunkBytes (c :: chunks) = c.2 + chunkBytes chunks := by
  simp [chunkBytes]

@[simp] theorem chunkBytes_append (a b : List (τ × Nat)) : chunkBytes (a ++ b) = chunkBytes a + chunkBytes b := by
  simp [chunkBytes]

theorem chunkBytes_le_of_sublist {a b : List (τ × Nat)} (h : a.Sublist b) : chunkBytes a ≤ chunkBytes b := by
  induction h with
  | slnil => exact Nat.le_refl _
  | cons c _ ih =>
    rw [chunkBytes_cons]
    omega
  | cons_cons c _ ih =>
    rw [chunkBytes_cons, chunkBytes_cons]
    omega

/-! ## Lanes -/

/-- A transfer that starts at an offset of the session. -/
structure Transfer (τ : Type) where
  tag : τ
  start : Nat
  length : Nat
  ended : Bool

/-- Both ends of one direction, and what is between them. `pending` is the receiver's count of what waits in its queue. -/
structure Lane (τ : Type) where
  sent : Nat
  acked : Nat
  consumed : Nat
  pending : Nat
  isOpen : Bool
  travelling : List (τ × Nat)
  queued : List (τ × Nat)
  acks : List (τ × Nat)
  current : Option (Transfer τ)

namespace Lane

/-- `l'` is `l` with chunks and acknowledgements lost and the present transfer perhaps dropped. -/
structure Fewer (l l' : Lane τ) : Prop where
  sent : l'.sent = l.sent
  acked : l'.acked = l.acked
  consumed : l'.consumed = l.consumed
  pending : l'.pending = l.pending
  isOpen : l'.isOpen = l.isOpen
  travelling : l'.travelling.Sublist l.travelling
  queued : l'.queued = l.queued
  acks : ∀ a ∈ l'.acks, a ∈ l.acks
  current : l'.current = none ∨ l'.current = l.current

def start (l : Lane τ) (tag : τ) (length : Nat) : Lane τ := { l with current := some ⟨tag, l.sent, length, false⟩ }

def send (l : Lane τ) (tag : τ) (n : Nat) : Lane τ := { l with sent := l.sent + n, travelling := l.travelling ++ [(tag, n)] }

def finish (l : Lane τ) (t : Transfer τ) : Lane τ := { l with current := some { t with ended := true } }

def arrive (l : Lane τ) (c : τ × Nat) (rest : List (τ × Nat)) : Lane τ :=
  { l with travelling := rest, pending := l.pending + c.2, queued := l.queued ++ [c] }

/-- The first chunk of the queue is consumed and acknowledged. -/
def consume (l : Lane τ) (c : τ × Nat) (rest : List (τ × Nat)) : Lane τ :=
  { l with
    queued := rest
    pending := l.pending - c.2
    consumed := l.consumed + c.2
    acks := (c.1, l.consumed + c.2) :: l.acks }

def close (l : Lane τ) : Lane τ := { l with isOpen := false, queued := [] }

section Acknowledge

variable [DecidableEq τ]

/-- An acknowledgement arrives. One for the present transfer retires it when that is over. -/
def acknowledge (l : Lane τ) (tag : τ) (upTo : Nat) : Lane τ :=
  let acked := max (min upTo l.sent) l.acked
  { l with
    acked := acked
    current := l.current.filter fun t => !(t.tag = tag && t.ended && acked ≥ t.start + t.length) }

/-- One step of a lane with window `W`. A `careful` lane starts no empty transfer, and no acknowledgement
covers a transfer before its end was sent. -/
inductive Step (W : Nat) (careful : Prop) (l l' : Lane τ) : Prop
  | lose (h : Fewer l l')
  | start (tag : τ) (length : Nat) (hpos : careful → 0 < length) (h : Fewer (l.start tag length) l')
  | send (t : Transfer τ) (n : Nat) (hcurrent : l.current = some t) (hwindow : l.sent + n ≤ l.acked + W)
      (h : Fewer (l.send t.tag n) l')
  | finish (t : Transfer τ) (hcurrent : l.current = some t) (hended : t.ended = false) (h : Fewer (l.finish t) l')
  | arrive (c : τ × Nat) (rest : List (τ × Nat)) (hopen : l.isOpen = true) (htravelling : l.travelling = c :: rest)
      (h : Fewer (l.arrive c rest) l')
  | consume (c : τ × Nat) (rest : List (τ × Nat)) (hqueued : l.queued = c :: rest) (h : Fewer (l.consume c rest) l')
  | close (h : Fewer l.close l')
  | acknowledge (tag : τ) (upTo : Nat) (hack : (tag, upTo) ∈ l.acks)
      (hcareful : careful → ∀ t ∈ l.current, t.ended = false → upTo < t.start + t.length)
      (h : Fewer (l.acknowledge tag upTo) l')

/-- A run of steps. -/
abbrev Steps (W : Nat) (careful : Prop) : Lane τ → Lane τ → Prop := Relation.ReflTransGen (Step W careful)

end Acknowledge

/-! ## The window -/

/-- What is consumed, waits or travels was sent, and at most a window of it is not acknowledged. -/
structure Flow (W : Nat) (l : Lane τ) : Prop where
  held : l.consumed + l.pending + chunkBytes l.travelling ≤ l.sent
  pending : l.isOpen = true → l.pending = chunkBytes l.queued
  closed : l.isOpen = false → l.queued = []
  acks : ∀ a ∈ l.acks, a.2 ≤ l.consumed
  acked : l.acked ≤ l.consumed
  window : l.sent ≤ l.acked + W

variable {tag : τ} {upTo : Nat} {t : Transfer τ}

namespace Flow

variable {W : Nat} {careful : Prop} {l l' : Lane τ}

theorem fewer (h : Flow W l) (hf : Fewer l l') : Flow W l' := by
  have hbytes := chunkBytes_le_of_sublist hf.travelling
  have hheld := h.held
  refine ⟨?_, ?_, ?_, ?_, ?_, ?_⟩
  · rw [hf.consumed, hf.pending, hf.sent]
    omega
  · rw [hf.isOpen, hf.pending, hf.queued]
    exact h.pending
  · rw [hf.isOpen, hf.queued]
    exact h.closed
  · rw [hf.consumed]
    exact fun a ha => h.acks a (hf.acks a ha)
  · rw [hf.acked, hf.consumed]
    exact h.acked
  · rw [hf.sent, hf.acked]
    exact h.window

theorem queued_le (h : Flow W l) : chunkBytes l.queued ≤ l.pending := by
  cases hopen : l.isOpen with
  | true => exact Nat.le_of_eq (h.pending hopen).symm
  | false =>
    rw [h.closed hopen]
    exact Nat.zero_le _

theorem consumed_le (h : Flow W l) : l.consumed ≤ l.sent := by
  have := h.held
  omega

variable {c : τ × Nat} {rest : List (τ × Nat)}

section

variable (h : Flow W l)
include h

theorem fits (htravelling : l.travelling = c :: rest) : l.pending + c.2 ≤ W := by
  have hheld := h.held
  have hacked := h.acked
  have hwindow := h.window
  rw [htravelling, chunkBytes_cons] at hheld
  omega

theorem with_current (current : Option (Transfer τ)) : Flow W { l with current := current } :=
  ⟨h.held, h.pending, h.closed, h.acks, h.acked, h.window⟩

theorem send (tag : τ) {n : Nat} (hwindow : l.sent + n ≤ l.acked + W) : Flow W (l.send tag n) := by
  refine ⟨?_, h.pending, h.closed, h.acks, h.acked, hwindow⟩
  have := h.held
  simp only [Lane.send, chunkBytes_append, chunkBytes_cons, chunkBytes_nil]
  omega

theorem arrive (hopen : l.isOpen = true) (htravelling : l.travelling = c :: rest) : Flow W (l.arrive c rest) := by
  refine ⟨?_, fun _ => ?_, fun hclosed => ?_, h.acks, h.acked, h.window⟩
  · have := h.held
    rw [htravelling, chunkBytes_cons] at this
    simp only [Lane.arrive]
    omega
  · simp only [Lane.arrive, chunkBytes_append, chunkBytes_cons, chunkBytes_nil, h.pending hopen, Nat.add_zero]
  · rw [show (l.arrive c rest).isOpen = l.isOpen from rfl, hopen] at hclosed
    cases hclosed

theorem consume (hqueued : l.queued = c :: rest) : Flow W (l.consume c rest) := by
  have hle := h.queued_le
  rw [hqueued, chunkBytes_cons] at hle
  refine ⟨?_, fun hopen => ?_, fun hclosed => ?_, fun a ha => ?_, ?_, h.window⟩
  · have := h.held
    simp only [Lane.consume]
    omega
  · have := h.pending hopen
    rw [hqueued, chunkBytes_cons] at this
    simp only [Lane.consume]
    omega
  · rw [h.closed hclosed] at hqueued
    cases hqueued
  · rcases List.mem_cons.1 ha with rfl | ha
    · exact Nat.le_refl _
    · exact Nat.le_add_right_of_le (h.acks a ha)
  · exact Nat.le_add_right_of_le h.acked

theorem close : Flow W l.close := by
  refine ⟨h.held, fun hopen => ?_, fun _ => rfl, h.acks, h.acked, h.window⟩
  cases hopen

end

variable [DecidableEq τ]

theorem acknowledge (h : Flow W l) (hack : (tag, upTo) ∈ l.acks) : Flow W (l.acknowledge tag upTo) := by
  have hupTo : upTo ≤ l.consumed := h.acks _ hack
  have hacked := h.acked
  have hwindow := h.window
  refine ⟨h.held, h.pending, h.closed, h.acks, ?_, ?_⟩
  · show max (min upTo l.sent) l.acked ≤ l.consumed
    omega
  · show l.sent ≤ max (min upTo l.sent) l.acked + W
    omega

theorem step (h : Flow W l) (hstep : Step W careful l l') : Flow W l' := by
  cases hstep with
  | lose hf => exact h.fewer hf
  | start tag length _ hf => exact (h.with_current _).fewer hf
  | send t n _ hwindow hf => exact (h.send t.tag hwindow).fewer hf
  | finish t _ _ hf => exact (h.with_current _).fewer hf
  | arrive c rest hopen htravelling hf => exact (h.arrive hopen htravelling).fewer hf
  | consume c rest hqueued hf => exact (h.consume hqueued).fewer hf
  | close hf => exact h.close.fewer hf
  | acknowledge tag upTo hack _ hf => exact (h.acknowledge hack).fewer hf

theorem steps (h : Flow W l) (hsteps : Steps W careful l l') : Flow W l' := by
  induction hsteps with
  | refl => exact h
  | tail _ hstep ih => exact ih.step hstep

end Flow

/-! ## Retirement -/

/-- Chunks that lie beyond `start`, counted from `base`, carry the tag. -/
def Placed (start : Nat) (tag : τ) : Nat → List (τ × Nat) → Prop
  | _, [] => True
  | base, c :: rest => (start < base + c.2 → c.1 = tag) ∧ Placed start tag (base + c.2) rest

theorem Placed.sublist {start : Nat} {tag : τ} {chunks chunks' : List (τ × Nat)} (hsub : chunks'.Sublist chunks) :
    ∀ {base base' : Nat}, base' ≤ base → Placed start tag base chunks → Placed start tag base' chunks' := by
  induction hsub with
  | slnil => exact fun _ _ => trivial
  | cons c _ ih =>
    intro base base' hbase h
    exact ih (by omega) h.2
  | cons_cons c _ ih =>
    intro base base' hbase h
    exact ⟨fun hlt => h.1 (by omega), ih (by omega) h.2⟩

theorem Placed.of_le {start : Nat} : ∀ {chunks : List (τ × Nat)} {base : Nat},
    base + chunkBytes chunks ≤ start → Placed start tag base chunks
  | [], _, _ => trivial
  | c :: chunks, base, h => by
    rw [chunkBytes_cons] at h
    exact ⟨fun hlt => by omega, Placed.of_le (by omega)⟩

theorem Placed.snoc {start n : Nat} {tag : τ} : ∀ {chunks : List (τ × Nat)} {base : Nat},
    Placed start tag base chunks → Placed start tag base (chunks ++ [(tag, n)])
  | [], _, _ => ⟨fun _ => rfl, trivial⟩
  | _ :: _, _, h => ⟨h.1, Placed.snoc h.2⟩

/-- The present transfer is not empty and not all acknowledged, and the chunks and acknowledgements beyond
its start are its own. -/
structure Unretired (l : Lane τ) (t : Transfer τ) : Prop where
  nonempty : 0 < t.length
  acked : l.acked < t.start + t.length
  placed : Placed t.start t.tag l.consumed (l.queued ++ l.travelling)
  acks : ∀ a ∈ l.acks, t.start < a.2 → a.1 = t.tag

def Retiring (l : Lane τ) : Prop := ∀ t ∈ l.current, Unretired l t

namespace Retiring

variable {W : Nat} {l l' : Lane τ}

theorem fewer (h : Retiring l) (hf : Fewer l l') : Retiring l' := by
  intro t ht
  rcases hf.current with hnone | hsame
  · rw [hnone] at ht
    cases ht
  · rw [hsame] at ht
    obtain ⟨hpos, hacked, hplaced, hacks⟩ := h t ht
    refine ⟨hpos, by rw [hf.acked]; exact hacked, ?_, fun a ha => hacks a (hf.acks a ha)⟩
    rw [hf.consumed, hf.queued]
    exact hplaced.sublist (hf.travelling.append_left l.queued) (Nat.le_refl _)

theorem start (hflow : Flow W l) (tag : τ) {length : Nat} (hpos : 0 < length) : Retiring (l.start tag length) := by
  rintro t ht
  obtain rfl := Option.some.inj ht
  have hheld := hflow.held
  have hqueued := hflow.queued_le
  have hacked := hflow.acked
  refine ⟨hpos, ?_, ?_, fun a ha hlt => ?_⟩
  · simp only [Lane.start]
    omega
  · refine Placed.of_le ?_
    simp only [Lane.start, chunkBytes_append]
    omega
  · have hconsumed : a.2 ≤ l.consumed := hflow.acks a ha
    dsimp only at hlt
    omega

theorem send (h : Retiring l) (hcurrent : l.current = some t) (n : Nat) : Retiring (l.send t.tag n) := by
  rintro t' ht'
  obtain rfl := Option.some.inj (hcurrent.symm.trans ht')
  obtain ⟨hpos, hacked, hplaced, hacks⟩ := h t hcurrent
  refine ⟨hpos, hacked, ?_, hacks⟩
  simp only [Lane.send, ← List.append_assoc]
  exact hplaced.snoc

theorem finish (h : Retiring l) (hcurrent : l.current = some t) : Retiring (l.finish t) := by
  rintro t' ht'
  obtain rfl := Option.some.inj ht'
  obtain ⟨hpos, hacked, hplaced, hacks⟩ := h t hcurrent
  exact ⟨hpos, hacked, hplaced, hacks⟩

theorem arrive (h : Retiring l) {c : τ × Nat} {rest : List (τ × Nat)} (htravelling : l.travelling = c :: rest) :
    Retiring (l.arrive c rest) := by
  rintro t ht
  obtain ⟨hpos, hacked, hplaced, hacks⟩ := h t ht
  refine ⟨hpos, hacked, ?_, hacks⟩
  rw [htravelling, List.append_cons] at hplaced
  exact hplaced

theorem consume (h : Retiring l) {c : τ × Nat} {rest : List (τ × Nat)} (hqueued : l.queued = c :: rest) :
    Retiring (l.consume c rest) := by
  rintro t ht
  obtain ⟨hpos, hacked, hplaced, hacks⟩ := h t ht
  rw [hqueued, List.cons_append] at hplaced
  refine ⟨hpos, hacked, hplaced.2, fun a ha => ?_⟩
  rcases List.mem_cons.1 ha with rfl | ha
  · exact hplaced.1
  · exact hacks a ha

theorem close (h : Retiring l) : Retiring l.close := by
  rintro t ht
  obtain ⟨hpos, hacked, hplaced, hacks⟩ := h t ht
  exact ⟨hpos, hacked, hplaced.sublist (List.sublist_append_right _ _) (Nat.le_refl _), hacks⟩

variable [DecidableEq τ]

/-- An acknowledgement that covers the transfer is beyond its start, so it is for this transfer and retires it. -/
theorem acknowledge (h : Retiring l) (hack : (tag, upTo) ∈ l.acks)
    (hcareful : ∀ t ∈ l.current, t.ended = false → upTo < t.start + t.length) : Retiring (l.acknowledge tag upTo) := by
  rintro t ht
  obtain ⟨hcurrent, hkept⟩ := Option.mem_filter_iff.1 ht
  obtain ⟨hpos, hacked, hplaced, hacks⟩ := h t hcurrent
  refine ⟨hpos, ?_, hplaced, hacks⟩
  show max (min upTo l.sent) l.acked < t.start + t.length
  cases hended : t.ended with
  | false =>
    have := hcareful t hcurrent hended
    omega
  | true =>
    by_contra hcovered
    have htag : t.tag = tag := (hacks _ hack (by show t.start < upTo; omega)).symm
    simp only [hended, htag, decide_true, Bool.and_true, Bool.true_and, Bool.not_eq_true', decide_eq_false_iff_not] at hkept
    exact hkept (by omega)

theorem step (h : Retiring l) (hflow : Flow W l) (hstep : Step W True l l') : Retiring l' := by
  cases hstep with
  | lose hf => exact h.fewer hf
  | start tag length hpos hf => exact (Retiring.start hflow tag (hpos trivial)).fewer hf
  | send t n hcurrent _ hf => exact (h.send hcurrent n).fewer hf
  | finish t hcurrent _ hf => exact (h.finish hcurrent).fewer hf
  | arrive c rest _ htravelling hf => exact (h.arrive htravelling).fewer hf
  | consume c rest hqueued hf => exact (h.consume hqueued).fewer hf
  | close hf => exact h.close.fewer hf
  | acknowledge tag upTo hack hcareful hf => exact (h.acknowledge hack (hcareful trivial)).fewer hf

theorem steps (h : Retiring l) (hflow : Flow W l) (hsteps : Steps W True l l') : Retiring l' := by
  have both : Flow W l' ∧ Retiring l' := by
    induction hsteps with
    | refl => exact ⟨hflow, h⟩
    | tail _ hstep ih => exact ⟨ih.1.step hstep, ih.2.step ih.1 hstep⟩
  exact both.2

end Retiring

end Lane

end Jwm
