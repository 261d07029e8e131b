/-
  Dice expressions.

  An operand is a number or a variable; counts, sizes and thresholds are operands, never whole
  expressions.  A dice term carries its modifiers in the order in which they were written.  The four
  kinds of modifier take effect in a fixed order whatever that order is, so each kind has a type of
  its own and `Modifier` is their sum.
-/
import Tabletop.Comparison

namespace Tabletop

/-- A number, or a variable by its name in upper case. -/
inductive Operand where
  | number (value : Int)
  | named (name : String)
  deriving DecidableEq, Repr

/-- The size of a die: its number of faces, or the Fate die with faces -1, 0 and 1. -/
inductive Sides (α : Type) where
  | faces (count : α)
  | fate
  deriving DecidableEq, Repr

/-! ## Modifiers -/

/-- Which end of the order by face. -/
inductive Extreme where
  | high
  | low
  deriving DecidableEq, Repr

/-- Whether a replacement that still meets the condition is replaced in turn. -/
inductive RerollMode where
  | once
  | continuous
  deriving DecidableEq, Repr

/-- What a selection does to the dice it counts off. -/
inductive SelectionAction where
  | keep
  | drop
  deriving DecidableEq, Repr

/-- Replaces the dice whose face meets the condition. -/
structure Reroll where
  mode : RerollMode
  comparison : Comparison
  threshold : Operand
  deriving DecidableEq, Repr

/-- Adds a die for every die whose face meets the condition.  Without a threshold the face is
    compared to the largest one, without a limit the limit in force applies. -/
structure Explosion where
  comparison : Comparison
  threshold : Option Operand
  limit : Option Int
  deriving DecidableEq, Repr

/-- Keeps or drops a number of dice from one end of the order by face. -/
structure Selection where
  action : SelectionAction
  extreme : Extreme
  count : Operand
  deriving DecidableEq, Repr

/-- Counts the dice whose face meets the condition, in place of adding faces. -/
structure SuccessCheck where
  comparison : Comparison
  threshold : Operand
  deriving DecidableEq, Repr

/-- A modifier of a dice term. -/
inductive Modifier where
  | reroll (modifier : Reroll)
  | explosion (modifier : Explosion)
  | selection (modifier : Selection)
  | successCheck (modifier : SuccessCheck)
  deriving DecidableEq, Repr

namespace Modifier

/-- The rerolls of a list of modifiers, in order. -/
def rerolls (modifiers : List Modifier) : List Reroll :=
  modifiers.filterMap fun | reroll m => some m | _ => none

/-- The explosions of a list of modifiers, in order. -/
def explosions (modifiers : List Modifier) : List Explosion :=
  modifiers.filterMap fun | explosion m => some m | _ => none

/-- The selections of a list of modifiers, in order. -/
def selections (modifiers : List Modifier) : List Selection :=
  modifiers.filterMap fun | selection m => some m | _ => none

/-- The success checks of a list of modifiers, in order. -/
def successChecks (modifiers : List Modifier) : List SuccessCheck :=
  modifiers.filterMap fun | successCheck m => some m | _ => none

end Modifier

/-! ## Expressions -/

/-- An arithmetic operator; only the first four have a meaning. -/
inductive Operator where
  | add
  | sub
  | mul
  | div
  | other (symbol : String)
  deriving DecidableEq, Repr

/-- A dice expression.

    `hopeFear` is a roll of two twelve-sided dice with pools of six-sided ones for and against;
    `target` compares the value of a whole expression; `missing` stands where no expression is. -/
inductive Expr where
  | number (value : Int)
  | named (name : String)
  | dice (count : Operand) (sides : Sides Operand) (modifiers : List Modifier)
  | hopeFear (advantage disadvantage : Operand) (modifiers : List Modifier)
  | binary (operator : Operator) (left right : Expr)
  | target (inner : Expr) (comparison : Comparison) (threshold : Operand)
  | missing
  deriving DecidableEq, Repr

namespace Operator

/-- How an operator is written. -/
def symbol : Operator → String
  | add => "+"
  | sub => "-"
  | mul => "*"
  | div => "/"
  | other s => s

/-- The operator that is written so. -/
def ofSymbol (s : String) : Operator :=
  ([add, sub, mul, div].find? (·.symbol == s)).getD (other s)

end Operator

end Tabletop
