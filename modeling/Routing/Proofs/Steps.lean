/-!
# Computations that may fail

A computation is a row of steps, and the first that fails decides the fault. These lemmas take one
step off at a time.

* `bind_eq_ok`, `bind_eq_error` — the first step of a computation, and the others
* `mapError_eq_ok`, `mapError_eq_error` — a step whose faults are told in other words
* `isSome_toOption` — a computation that succeeds
-/

namespace Routing

variable {ε ε' α β : Type} {x : Except ε α} {f : α → Except ε β}

/-- A computation succeeds when its first step does and the others succeed on what that gives. -/
theorem bind_eq_ok {b : β} : (x >>= f) = .ok b ↔ ∃ a, x = .ok a ∧ f a = .ok b := by
  cases x with
  | error e => simp [bind, Except.bind]
  | ok a => simp [bind, Except.bind]

/-- A computation fails in its first step, or behind it. -/
theorem bind_eq_error {e : ε} :
    (x >>= f) = .error e ↔ x = .error e ∨ ∃ a, x = .ok a ∧ f a = .error e := by
  cases x with
  | error e' => simp [bind, Except.bind]
  | ok a => simp [bind, Except.bind]

/-- Telling a fault in other words makes no step succeed. -/
theorem mapError_eq_ok {g : ε → ε'} {a : α} : x.mapError g = .ok a ↔ x = .ok a := by
  cases x with
  | error e => exact ⟨nofun, nofun⟩
  | ok b =>
    show Except.ok b = .ok a ↔ _
    rw [Except.ok.injEq, Except.ok.injEq]

/-- A step fails with a fault told in other words when it fails. -/
theorem mapError_eq_error {g : ε → ε'} {e' : ε'} :
    x.mapError g = .error e' ↔ ∃ e, x = .error e ∧ g e = e' := by
  cases x with
  | error e =>
    show Except.error (g e) = .error e' ↔ _
    simp
  | ok b => exact ⟨nofun, nofun⟩

/-- A computation has a result when it succeeds with one. -/
theorem isSome_toOption : x.toOption.isSome = true ↔ ∃ a, x = .ok a := by
  cases x with
  | error e => exact ⟨nofun, nofun⟩
  | ok b => exact ⟨fun _ => ⟨b, rfl⟩, fun _ => rfl⟩

end Routing
