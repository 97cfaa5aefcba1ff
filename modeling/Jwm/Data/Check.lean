/-
Chains of checks that fail with a message: a chain succeeds exactly when every check passes and
every step returns.
-/

namespace Jwm

/-- `if c { return Err(error) }`. -/
def rejectIf (c : Prop) [Decidable c] (error : String) : Except String Unit :=
  if c then .error error else .ok ()

variable {α β ε : Type}

theorem bind_eq_ok {x : Except ε α} {f : α → Except ε β} {b : β} :
    (x >>= f) = .ok b ↔ ∃ a, x = .ok a ∧ f a = .ok b := by
  cases x with
  | error e =>
    refine ⟨fun h => ?_, fun ⟨a, h, _⟩ => ?_⟩
    · cases h
    · cases h
  | ok a =>
    refine ⟨fun h => ⟨a, rfl, h⟩, fun ⟨a', h, hf⟩ => ?_⟩
    obtain rfl := Except.ok.inj h
    exact hf

theorem rejectIf_eq_ok {c : Prop} [Decidable c] {error : String} {u : Unit} : rejectIf c error = .ok u ↔ ¬ c := by
  unfold rejectIf
  split
  · refine ⟨fun h => ?_, fun h => absurd ‹c› h⟩
    cases h
  · exact ⟨fun _ => ‹¬ c›, fun _ => rfl⟩

theorem unit_bind_eq_ok {x : Except ε Unit} {f : Unit → Except ε β} {b : β} :
    (x >>= f) = .ok b ↔ x = .ok () ∧ f () = .ok b := by
  rw [bind_eq_ok]
  exact ⟨fun ⟨(), h⟩ => h, fun h => ⟨(), h⟩⟩

theorem pure_eq_ok {a b : α} : (pure a : Except ε α) = .ok b ↔ a = b :=
  ⟨fun h => Except.ok.inj h, fun h => congrArg Except.ok h⟩

end Jwm
