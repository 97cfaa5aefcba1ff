/-
Computations on a state that may stop with an error and keep what they had written by then: the
reading of `&mut self` methods that return `Result`. `Ensures x s Q E` says how `x` ends when started
in `s`: a value and a state that meet `Q`, or an error in a state that meets `E`.
-/
import Mathlib.Algebra.Ring.Nat

namespace Jwm

variable {ε σ α β : Type}

/-- Started in `s`, `x` returns as `Q` says or fails in a state that meets `E`. -/
def Ensures (x : EStateM ε σ α) (s : σ) (Q : α → σ → Prop) (E : σ → Prop) : Prop :=
  match x s with
  | .ok a s' => Q a s'
  | .error _ s' => E s'

/-- `match x { Ok(..) => .., Err(..) => .. }`: the error becomes a value, the state stays. -/
def attempt (x : EStateM ε σ α) : EStateM ε σ (Except ε α) := fun s =>
  match x s with
  | .ok a s' => .ok (.ok a) s'
  | .error e s' => .ok (.error e) s'

variable {f : α → EStateM ε σ β} {c : Prop} {y : EStateM ε σ α} {γ : Type}

section Rules

variable {s : σ} {Q Q' : α → σ → Prop} {E E' : σ → Prop}

variable {x : EStateM ε σ α}

theorem Ensures.mono (h : Ensures x s Q E) (hQ : ∀ a s', Q a s' → Q' a s')
    (hE : ∀ s', E s' → E' s') : Ensures x s Q' E' := by
  unfold Ensures at h ⊢
  cases hx : x s with
  | ok a s' => rw [hx] at h; exact hQ a s' h
  | error e s' => rw [hx] at h; exact hE s' h

theorem Ensures.and (h : Ensures x s Q E) (h' : Ensures x s Q' E') :
    Ensures x s (fun a s' => Q a s' ∧ Q' a s') (fun s' => E s' ∧ E' s') := by
  unfold Ensures at h h' ⊢
  cases hx : x s with
  | ok a s' | error e s' => rw [hx] at h h'; exact ⟨h, h'⟩

theorem ensures_true (x : EStateM ε σ α) : Ensures x s (fun _ _ => True) fun _ => True := by
  unfold Ensures
  cases x s with
  | ok a s' | error e s' => trivial

theorem ensures_pure {a : α} (h : Q a s) : Ensures (pure a : EStateM ε σ α) s Q E := h

theorem ensures_throw {e : ε} (h : E s) : Ensures (throw e : EStateM ε σ α) s Q E := h

theorem ensures_get {Q : σ → σ → Prop} (h : Q s s) : Ensures (get : EStateM ε σ σ) s Q E := h

theorem ensures_modify {f : σ → σ} {Q : Unit → σ → Prop} (h : Q () (f s)) :
    Ensures (modify f : EStateM ε σ Unit) s Q E := h

theorem ensures_bind {Q : β → σ → Prop} (h : Ensures x s (fun a s' => Ensures (f a) s' Q E) E) : Ensures (x >>= f) s Q E := by
  unfold Ensures at h ⊢
  show match EStateM.bind x f s with | .ok a s' => Q a s' | .error _ s' => E s'
  unfold EStateM.bind
  cases hx : x s with
  | ok a s' | error e s' => rw [hx] at h; exact h

/-- Run `x`, then go on from wherever its specification leaves it. -/
theorem Ensures.bind {P : α → σ → Prop} {F : σ → Prop} {Q : β → σ → Prop}
    (h : Ensures x s P F) (hf : ∀ a s', P a s' → Ensures (f a) s' Q E) (hF : ∀ s', F s' → E s') :
    Ensures (x >>= f) s Q E :=
  ensures_bind (h.mono hf hF)

theorem ensures_attempt {Q : Except ε α → σ → Prop}
    (h : Ensures x s (fun a s' => Q (.ok a) s') (fun s' => ∀ e, Q (.error e) s')) : Ensures (attempt x) s Q E := by
  unfold Ensures attempt at *
  cases hx : x s with
  | ok a s' => rw [hx] at h; exact h
  | error e s' => rw [hx] at h; exact h e

theorem ensures_ite [Decidable c] (hx : c → Ensures x s Q E)
    (hy : ¬ c → Ensures y s Q E) : Ensures (if c then x else y) s Q E := by
  split
  · exact hx ‹c›
  · exact hy ‹¬ c›

end Rules

/-! ## Relations every outcome keeps -/

/-- However `x` ends, the state it leaves is related to the one it started in. -/
def Always (R : σ → σ → Prop) (x : EStateM ε σ α) : Prop := ∀ s, Ensures x s (fun _ s' => R s s') (R s)

/-- A relation that holds over no steps and over one step after another. -/
structure Lasting (R : σ → σ → Prop) : Prop where
  refl : ∀ s, R s s
  trans : ∀ {a b c}, R a b → R b c → R a c

namespace Lasting

variable {R : σ → σ → Prop}

theorem pure (hR : Lasting R) (a : α) : Always R (Pure.pure a : EStateM ε σ α) := fun s => hR.refl s

theorem throw (hR : Lasting R) (e : ε) : Always R (MonadExcept.throw e : EStateM ε σ α) := fun s => hR.refl s

theorem bind (hR : Lasting R) {x : EStateM ε σ α} (hx : Always R x) (hf : ∀ a, Always R (f a)) : Always R (x >>= f) := fun s =>
  (hx s).bind (fun a s' h => (hf a s').mono (fun _ _ h' => hR.trans h h') fun _ h' => hR.trans h h') fun _ h => h

end Lasting

variable {x : EStateM ε σ α}

theorem always_modify {R : σ → σ → Prop} {f : σ → σ} (h : ∀ s, R s (f s)) : Always R (modify f : EStateM ε σ Unit) :=
  fun s => ensures_modify (h s)

theorem always_forM_mem {R : σ → σ → Prop} (hR : Lasting R) {f : γ → EStateM ε σ PUnit} :
    ∀ l : List γ, (∀ c ∈ l, Always R (f c)) → Always R (l.forM f)
  | [], _ => hR.pure _
  | c :: l, hf => hR.bind (hf c List.mem_cons_self) fun _ =>
    always_forM_mem hR l fun c hc => hf c (List.mem_cons_of_mem _ hc)

theorem always_forM {R : σ → σ → Prop} (hR : Lasting R) {f : γ → EStateM ε σ PUnit} (hf : ∀ c, Always R (f c)) (l : List γ) :
    Always R (l.forM f) :=
  always_forM_mem hR l fun c _ => hf c

theorem always_ite {R : σ → σ → Prop} [Decidable c] (hx : Always R x) (hy : Always R y) : Always R (if c then x else y) := by
  split
  · exact hx
  · exact hy

/-! ## Computations that do not fail -/

/-- `x` returns, in a state related to the one it started in. -/
def Returns (R : σ → σ → Prop) (x : EStateM ε σ α) : Prop := ∀ s, Ensures x s (fun _ s' => R s s') fun _ => False

section Returns

variable {R : σ → σ → Prop}

theorem Returns.always (hx : Returns R x) : Always R x := fun s => (hx s).mono (fun _ _ h => h) fun _ h => h.elim

/-- What is known of `x` when it returns holds, as it does return. -/
theorem Returns.ensures (hx : Returns R x) {s : σ} {Q : α → σ → Prop} {E E' : σ → Prop} (h : Ensures x s Q E) :
    Ensures x s (fun a s' => R s s' ∧ Q a s') E' :=
  ((hx s).and h).mono (fun _ _ h => h) fun _ h => h.1.elim

theorem Returns.of_always {R' : σ → σ → Prop} (hx : Returns R' x) (h : Always R x) : Returns R x := fun s =>
  (hx.ensures (h s)).mono (fun _ _ h => h.2) fun _ h => h

theorem returns_modify {f : σ → σ} (h : ∀ s, R s (f s)) : Returns R (modify f : EStateM ε σ Unit) :=
  fun s => ensures_modify (h s)

theorem returns_attempt (hx : Always R x) : Returns R (attempt x) := fun s =>
  ensures_attempt ((hx s).mono (fun _ _ h => h) fun _ h _ => h)

theorem always_attempt (hx : Always R x) : Always R (attempt x) := (returns_attempt hx).always

theorem returns_ite [Decidable c] (hx : Returns R x) (hy : Returns R y) : Returns R (if c then x else y) := by
  split
  · exact hx
  · exact hy

variable (hR : Lasting R)
include hR

theorem Lasting.returns (a : α) : Returns R (Pure.pure a : EStateM ε σ α) := fun s => hR.refl s

theorem Lasting.returns_get : Returns R (MonadState.get : EStateM ε σ σ) := fun s => hR.refl s

theorem Lasting.returns_bind (hx : Returns R x) (hf : ∀ a, Returns R (f a)) : Returns R (x >>= f) := fun s =>
  (hx s).bind (fun a s' h => (hf a s').mono (fun _ _ h' => hR.trans h h') fun _ h => h) fun _ h => h

theorem Lasting.returns_forM {f : γ → EStateM ε σ PUnit} (hf : ∀ c, Returns R (f c)) : ∀ l : List γ, Returns R (l.forM f)
  | [] => hR.returns _
  | c :: l => hR.returns_bind (hf c) fun _ => returns_forM hf l

end Returns

end Jwm
