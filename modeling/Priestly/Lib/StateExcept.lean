/-
Module: Priestly.Lib.StateExcept
Layer: Lib
Purpose: How the steps of a computation with a state and exceptions compose: a sequence goes on from the
  result and the state of its first part, or ends with the exception that part raises.
Imports: none
Trusted boundary: none
Main exports: StateExcept.final, StateExcept.get_bind, StateExcept.bind_ok, StateExcept.bind_error,
  StateExcept.bind_eq_ok, StateExcept.bind_eq_error
-/
namespace StateExcept

variable {ε σ α β : Type} {first : EStateM ε σ α} {next : α → EStateM ε σ β} {s s' : σ}

/-- The state that a computation leaves, whether it raises or not. -/
def final : EStateM.Result ε σ α → σ
  | .ok _ s => s
  | .error _ s => s

/-- A sequence that looks at the state first. -/
theorem get_bind {next : σ → EStateM ε σ β} : (get >>= next) s = next s s := rfl

/-- A sequence that changes the state first. -/
theorem set_bind {next : PUnit → EStateM ε σ β} : (set s' >>= next) s = next ⟨⟩ s' := rfl

/-- A sequence goes on where its first part succeeds. -/
theorem bind_ok {value : α} (h : first s = .ok value s') : (first >>= next) s = next value s' := by
  simp only [bind, EStateM.bind, h]

/-- A sequence ends where its first part raises. -/
theorem bind_error {exn : ε} (h : first s = .error exn s') :
    (first >>= next) s = .error exn s' := by
  simp only [bind, EStateM.bind, h]

/-- A sequence depends on what its first part does at the state. -/
theorem bind_congr {first' : EStateM ε σ α} (h : first s = first' s') :
    (first >>= next) s = (first' >>= next) s' := by
  simp only [bind, EStateM.bind, h]

/-- A sequence that succeeds consists of two parts that do. -/
theorem bind_eq_ok {result : β} {t : σ} (h : (first >>= next) s = .ok result t) :
    ∃ value s', first s = .ok value s' ∧ next value s' = .ok result t := by
  cases hfirst : first s with
  | ok value s' => exact ⟨value, s', rfl, (bind_ok hfirst).symm.trans h⟩
  | error exn s' =>
      rw [bind_error hfirst] at h
      cases h

/-- A sequence that raises does so in one of its two parts. -/
theorem bind_eq_error {exn : ε} {t : σ} (h : (first >>= next) s = .error exn t) :
    first s = .error exn t ∨
      ∃ value s', first s = .ok value s' ∧ next value s' = .error exn t := by
  cases hfirst : first s with
  | ok value s' => exact .inr ⟨value, s', rfl, (bind_ok hfirst).symm.trans h⟩
  | error other s' =>
      rw [bind_error hfirst] at h
      cases h
      exact .inl rfl

end StateExcept
