/-
Runs of a machine that answers calls: the state a sequence of calls leaves, and its trace, the calls
with their answers. An invariant may speak about the trace so far; two machines that answer alike
from related states answer alike over every run.
-/
import Mathlib.Algebra.Ring.Nat
import Mathlib.Data.List.Nodup

namespace Jwm

variable {σ τ ε ο : Type}

def after (step : σ → ε → σ × ο) : σ → List ε → σ
  | s, [] => s
  | s, e :: es => after step (step s e).1 es

/-- The calls of a run, each with its answer, oldest first. -/
def trace (step : σ → ε → σ × ο) : σ → List ε → List (ε × ο)
  | _, [] => []
  | s, e :: es => (e, (step s e).2) :: trace step (step s e).1 es

def answers (step : σ → ε → σ × ο) (s : σ) (es : List ε) : List ο := (trace step s es).map Prod.snd

/-- Every call of the run meets `P` in the state it is made in. -/
def Along (P : σ → ε → Prop) (step : σ → ε → σ × ο) : σ → List ε → Prop
  | _, [] => True
  | s, e :: es => P s e ∧ Along P step (step s e).1 es

variable {step : σ → ε → σ × ο} {P : σ → ε → Prop}

instance decidableAlong [∀ s e, Decidable (P s e)] : ∀ (s : σ) (es : List ε), Decidable (Along P step s es)
  | _, [] => isTrue trivial
  | s, e :: es => @instDecidableAnd _ _ _ (decidableAlong (step s e).1 es)

/-! ## Runs in two parts -/

theorem after_append : ∀ (s : σ) (es fs : List ε), after step s (es ++ fs) = after step (after step s es) fs
  | _, [], _ => rfl
  | s, e :: es, fs => after_append (step s e).1 es fs

theorem trace_append : ∀ (s : σ) (es fs : List ε),
    trace step s (es ++ fs) = trace step s es ++ trace step (after step s es) fs
  | _, [], _ => rfl
  | s, e :: es, fs => by
    rw [List.cons_append, trace, trace, List.cons_append, trace_append (step s e).1 es fs, after]

theorem map_fst_trace : ∀ (s : σ) (es : List ε), (trace step s es).map Prod.fst = es
  | _, [] => rfl
  | s, e :: es => by rw [trace, List.map_cons, map_fst_trace (step s e).1 es]

theorem along_append : ∀ {s : σ} {es fs : List ε},
    Along P step s (es ++ fs) ↔ Along P step s es ∧ Along P step (after step s es) fs
  | _, [], _ => ⟨fun h => ⟨trivial, h⟩, And.right⟩
  | s, e :: es, fs => by
    rw [List.cons_append, Along, Along, after, along_append, and_assoc]

theorem along_and {Q : σ → ε → Prop} : ∀ {s : σ} {es : List ε}, Along P step s es → Along Q step s es →
    Along (fun s e => P s e ∧ Q s e) step s es
  | _, [], _, _ => trivial
  | _, _ :: _, hP, hQ => ⟨⟨hP.1, hQ.1⟩, along_and hP.2 hQ.2⟩

theorem after_replicate {f : Nat → σ} {e : ε} : ∀ {n k : Nat},
    (∀ i < n, (step (f (k + i)) e).1 = f (k + i + 1)) → after step (f k) (List.replicate n e) = f (k + n)
  | 0, _, _ => rfl
  | n + 1, k, h => by
    have hstep : (step (f k) e).1 = f (k + 1) := h 0 (Nat.succ_pos n)
    rw [List.replicate_succ, after, hstep, after_replicate fun i hi => ?_]
    · rw [Nat.add_assoc, Nat.add_comm 1 n]
    · rw [show k + 1 + i = k + (i + 1) by omega]
      exact h (i + 1) (by omega)

/-! ## Invariants -/

theorem after_invariant {I : σ → Prop} (keep : ∀ s e, I s → I (step s e).1) :
    ∀ {s : σ}, I s → ∀ es, I (after step s es)
  | _, h, [] => h
  | s, h, e :: es => after_invariant keep (keep s e h) es

/-- The same for an invariant of the state and the trace that led to it, over the runs whose calls
all meet `P`. -/
theorem trace_invariant_along {I : List (ε × ο) → σ → Prop}
    (keep : ∀ h s e, P s e → I h s → I (h ++ [(e, (step s e).2)]) (step s e).1) {s : σ} (h : I [] s) {es : List ε}
    (hes : Along P step s es) : I (trace step s es) (after step s es) := by
  have run : ∀ (es : List ε) (done : List (ε × ο)) (s : σ), Along P step s es → I done s →
      I (done ++ trace step s es) (after step s es) := by
    intro es
    induction es with
    | nil => intro done s _ h; rw [trace, List.append_nil]; exact h
    | cons e es ih =>
      rintro done s ⟨he, hes⟩ h
      rw [trace, after, List.append_cons]
      exact ih _ _ hes (keep done s e he h)
  exact run es [] s hes h

theorem along_true : ∀ (s : σ) (es : List ε), Along (fun _ _ => True) step s es
  | _, [] => trivial
  | s, e :: es => ⟨trivial, along_true (step s e).1 es⟩

theorem trace_invariant {I : List (ε × ο) → σ → Prop}
    (keep : ∀ h s e, I h s → I (h ++ [(e, (step s e).2)]) (step s e).1) {s : σ} (h : I [] s) (es : List ε) :
    I (trace step s es) (after step s es) :=
  trace_invariant_along (fun h s e _ => keep h s e) h (along_true s es)

/-! ## Simulation -/

variable {step' : τ → ε → τ × ο} {R : σ → τ → Prop}

/-- Machines that answer alike from related states, and stay related, answer alike over every run. -/
theorem answers_simulation (sim : ∀ s t e, R s t → (step s e).2 = (step' t e).2 ∧ R (step s e).1 (step' t e).1) :
    ∀ {s : σ} {t : τ}, R s t → ∀ es, answers step s es = answers step' t es
  | _, _, _, [] => rfl
  | s, t, h, e :: es => by
    obtain ⟨hanswer, hrel⟩ := sim s t e h
    have rest := answers_simulation sim hrel es
    unfold answers at rest ⊢
    rw [trace, trace, List.map_cons, List.map_cons, rest, hanswer]

theorem after_simulation (sim : ∀ s t e, R s t → (step s e).2 = (step' t e).2 ∧ R (step s e).1 (step' t e).1) :
    ∀ {s : σ} {t : τ}, R s t → ∀ es, R (after step s es) (after step' t es)
  | _, _, h, [] => h
  | s, t, h, e :: es => after_simulation sim (sim s t e h).2 es

end Jwm
