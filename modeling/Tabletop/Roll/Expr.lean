/-
  Rolling a whole expression.

  Operands of an operator are rolled left before right, and both before the operator is applied.
  Values combine by the operator, division going to the floor; successes add up whatever the
  operator is; the Hope/Fear pair and the target check are those of the right side where it has
  them.

  Operators and target checks may lie only so deep inside one another: an expression that is deeper
  is too long to evaluate, and which of its dice are drawn before that shows follows from the order.
-/
import Tabletop.Roll.Term

namespace Tabletop

namespace Operator

/-- The value of an operator on two values, or why it has none. -/
def apply (operator : Operator) (left right : Int) : Except Hazard Int :=
  match operator with
  | add => .ok (left + right)
  | sub => .ok (left - right)
  | mul => .ok (left * right)
  | div => if right = 0 then .error .divisionByZero else .ok (left.fdiv right)
  | other symbol => .error (.unknownOperator symbol)

end Operator

namespace Tally

/-- The successes of two sides together: none if neither counts any. -/
def addSuccesses : Option Int → Option Int → Option Int
  | none, none => none
  | left, right => some (left.getD 0 + right.getD 0)

/-- The tally of an operator whose value is `value`. -/
def combine (value : Int) (left right : Tally) : Tally where
  value
  dice := left.dice ++ right.dice
  successes := addSuccesses left.successes right.successes
  pair := right.pair.or left.pair
  verdict := right.verdict.or left.verdict

/-- The tally with its value held against a threshold. -/
def check (tally : Tally) (comparison : Comparison) (threshold : Int) : Tally :=
  { tally with
    verdict := some ⟨comparison, threshold, comparison.holds tally.value threshold⟩ }

end Tally

/-- Rolls an expression; `room` is how many operators and target checks may still be entered. -/
def Expr.roll (setup : Setup) : Expr → Nat → Rolling Tally
  | .number n, _ => pure { value := n }
  | .named name, _ => do return { value := ← Rolling.resolve setup (.named name) }
  | .dice count sides modifiers, _ => Rolling.diceTerm setup count sides modifiers
  | .hopeFear advantage disadvantage modifiers, _ =>
    Rolling.hopeFearTerm setup advantage disadvantage modifiers
  | .missing, _ => throw (.defect .missingNode)
  | .binary _ _ _, 0 => Rolling.refuse .tooLong
  | .target _ _ _, 0 => Rolling.refuse .tooLong
  | .binary operator left right, room + 1 => do
    let l ← left.roll setup room
    let r ← right.roll setup room
    match operator.apply l.value r.value with
    | .ok value => return l.combine value r
    | .error hazard => Rolling.refuse hazard
  | .target inner comparison threshold, room + 1 => do
    let tally ← inner.roll setup room
    return tally.check comparison (← Rolling.resolve setup threshold)

end Tabletop
