/-
  Runs of steps that fail or go on with a changed state.

  Reading and rolling are both made of such steps.  A run of two steps in a row is taken apart into
  the run of the first and the run of the second from where the first stopped; nothing else about
  how steps are put together enters the proofs of this library.
-/

namespace Tabletop.Run

variable {ε σ α β : Type}

/-- Two steps in a row succeed just when the first does, and the second from where it stopped. -/
theorem bind_eq_ok {x : EStateM ε σ α} {f : α → EStateM ε σ β} {s s'' : σ} {b : β} :
    (x >>= f) s = .ok b s'' ↔ ∃ a s', x s = .ok a s' ∧ f a s' = .ok b s'' := by
  show (match x s with | .ok a s' => f a s' | .error e s' => .error e s') = _ ↔ _
  cases x s <;> simp [and_assoc]

/-- After a first step that succeeds, the second one decides. -/
theorem bind_of_ok {x : EStateM ε σ α} {f : α → EStateM ε σ β} {s s' : σ} {a : α}
    (h : x s = .ok a s') : (x >>= f) s = f a s' := by
  show (match x s with | .ok a s' => f a s' | .error e s' => .error e s') = _
  rw [h]

/-- After a first step that fails, there is no second one. -/
theorem bind_of_error {x : EStateM ε σ α} {f : α → EStateM ε σ β} {s s' : σ} {e : ε}
    (h : x s = .error e s') : (x >>= f) s = .error e s' := by
  show (match x s with | .ok a s' => f a s' | .error e s' => .error e s') = _
  rw [h]

end Tabletop.Run
