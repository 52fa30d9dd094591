/-!
# Computations that may fail

How `do` notation over `Except` opens up: a sequence of steps succeeds just when each
step does. Everything that reads a text is such a sequence.
-/

namespace Provisioning.Outcome

variable {ε α β : Type}

/-- Two steps succeed when the first does and the second does on what it gave. -/
theorem bind_eq_ok {step : Except ε α} {next : α → Except ε β} {result : β} :
    (step >>= next) = .ok result ↔ ∃ a, step = .ok a ∧ next a = .ok result := by
  cases step <;> simp [bind, Except.bind]

/-- Wording a fault in another way gives no success and takes none. -/
theorem mapError_eq_ok {ε' : Type} {f : ε → ε'} {outcome : Except ε α} {result : α} :
    outcome.mapError f = .ok result ↔ outcome = .ok result := by
  cases outcome with
  | error fault => exact ⟨nofun, nofun⟩
  | ok a =>
    constructor <;>
      · intro h
        cases h
        rfl

/-- Behind a step that succeeds the next one goes on. -/
theorem ok_bind (a : α) (next : α → Except ε β) : (Except.ok a >>= next) = next a := rfl

theorem ok_mapError {ε' : Type} (a : α) (f : ε → ε') : (Except.ok a).mapError f = .ok a := rfl

/-! ## Failing -/

/-- What is only done to a result does not fail. -/
theorem eq_error_of_bind_pure {step : Except ε α} {change : α → β} {fault : ε}
    (h : (step >>= fun a => pure (change a)) = .error fault) : step = .error fault := by
  cases step with
  | error other => cases h; rfl
  | ok a => cases h

/-- An outcome that is a fault, whichever. -/
def Fails (outcome : Except ε α) : Prop := ∃ fault, outcome = .error fault

theorem fails_error (fault : ε) : Fails (.error fault : Except ε α) := ⟨fault, rfl⟩

/-- What has no result has failed. -/
theorem fails_of_ne_ok {outcome : Except ε α} (h : ∀ a, outcome ≠ .ok a) : Fails outcome := by
  cases outcome with
  | error fault => exact fails_error fault
  | ok a => exact absurd rfl (h a)

theorem Fails.ne_ok {outcome : Except ε α} (h : Fails outcome) (a : α) : outcome ≠ .ok a := by
  obtain ⟨fault, rfl⟩ := h
  exact nofun

/-- Behind a step that fails nothing is done. -/
theorem Fails.bind {step : Except ε α} (h : Fails step) (next : α → Except ε β) :
    Fails (step >>= next) := by
  obtain ⟨fault, rfl⟩ := h
  exact fails_error fault

theorem Fails.mapError {ε' : Type} {outcome : Except ε α} (h : Fails outcome) (f : ε → ε') :
    Fails (outcome.mapError f) := by
  obtain ⟨fault, rfl⟩ := h
  exact fails_error (f fault)

/-! ## For `grind` -/

@[grind =]
theorem bind_eq_match (step : Except ε α) (next : α → Except ε β) :
    (step >>= next) = match step with | .ok a => next a | .error fault => .error fault := by
  cases step <;> rfl

@[grind =]
theorem pure_eq_ok (a : α) : (pure a : Except ε α) = .ok a := rfl

@[grind =]
theorem throw_eq_error (fault : ε) : (throw fault : Except ε α) = .error fault := rfl

end Provisioning.Outcome
