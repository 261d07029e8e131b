/-
  Sources of draws.

  A source answers requests for a number from 1 to a bound.  What it answers may hang on the bound
  and on the requests before, so a source is a function of those: the first request of a roll sees
  an empty history.  It may have no answer, and it is not held to the bound.
-/

namespace Tabletop

/-- A source of draws: from the bounds of the requests before, oldest first, and the bound of this
    one to the number drawn. -/
abbrev Source := Array Nat → Nat → Option Int

namespace Source

/-- The source that goes through a list of numbers again and again, whatever the bound; an empty
    list has no answer. -/
def cycle (numbers : Array Int) : Source := fun earlier _ =>
  numbers[earlier.size % numbers.size]?

/-- The source that always answers with the same number. -/
def always (n : Int) : Source := fun _ _ => some n

/-! ## Linear congruences -/

/-- The modulus of the congruence: 2 to the 31. -/
def modulus : Nat := 2147483648

/-- The state after the given one. -/
def advance (state : Nat) : Nat := (state * 1103515245 + 12345) % modulus

/-- The state after so many steps. -/
def stateAfter : Nat → Nat → Nat
  | 0, state => state
  | steps + 1, state => stateAfter steps (advance state)

/-- The source that takes a step of the congruence for each draw and leaves the eight lowest bits of
    the state unused. -/
def congruence (seed : Int) : Source := fun earlier bound =>
  some (1 + (stateAfter (earlier.size + 1) (seed % modulus).toNat / 256 % bound : Nat))

/-- The source that answers as `source` does after the given requests. -/
def after (requests : Array Nat) (source : Source) : Source := fun earlier bound =>
  source (requests ++ earlier) bound

end Source

end Tabletop
