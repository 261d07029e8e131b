/-
  What is worth noting while an expression is evaluated.

  Events are values that the stages hand on in order; who keeps a log picks them by level.
-/
import Tabletop.Die
import Tabletop.Fault

namespace Tabletop

open Numeral

/-- How much an event matters, least first. -/
inductive Level where
  | debug
  | info
  | warning
  deriving DecidableEq, Repr

namespace Level

/-- What a level is called. -/
def label : Level → String
  | debug => "DEBUG"
  | info => "INFO"
  | warning => "WARNING"

/-- The rank of a level. -/
def rank : Level → Nat
  | debug => 0
  | info => 1
  | warning => 2

end Level

/-- The part of the work that an event belongs to: cutting a text into tokens, fitting these to the
    grammar, rolling dice, or handling an expression as a whole. -/
inductive Stage where
  | tokens
  | grammar
  | dice
  | expression
  deriving DecidableEq, Repr

/-- What is worth noting. -/
inductive Event where
  | skipped (char : Char) (position : Nat)
  | retried (tokenIndex : Nat) (failure : Misfit)
  | rerollLimit (limit : Int)
  | explosionLimit (limit : Int)
  | ignoredModifiers (count : Nat)
  | resolved (count : Int) (sides : Sides Int) (modifiers : Nat) (faces : List Int) (value : Int)
  | expanded (expression expansion : String)
  | failed (expression : String) (error : ExprError)
  deriving DecidableEq, Repr

namespace Event

/-- How much an event matters. -/
def level : Event → Level
  | rerollLimit _ | explosionLimit _ | ignoredModifiers _ => .warning
  | failed _ _ => .info
  | _ => .debug

/-- The part of the work that an event belongs to. -/
def stage : Event → Stage
  | skipped _ _ => .tokens
  | retried _ _ => .grammar
  | expanded _ _ | failed _ _ => .expression
  | _ => .dice

/-- What an event says. -/
def message : Event → String
  | skipped char position =>
    "Skipping unrecognized character " ++ Text.quoted (String.ofList [char]) ++
      " at position " ++ decimalNat position
  | retried tokenIndex failure =>
    "Not a dice term at token " ++ decimalNat tokenIndex ++ " (" ++ failure.message ++
      "), parsing as atom"
  | rerollLimit limit => "Reroll limit of " ++ decimal limit ++ " reached"
  | explosionLimit limit => "Explosion limit of " ++ decimal limit ++ " reached"
  | ignoredModifiers count =>
    "Ignoring " ++ decimalNat count ++ " modifier(s) on Hope/Fear roll"
  | resolved count sides modifiers faces value =>
    "Resolved " ++ decimal count ++ "d" ++ sides.text ++ " with " ++ decimalNat modifiers ++
      " modifier(s): [" ++ ", ".intercalate (faces.map decimal) ++ "] -> " ++ decimal value
  | expanded expression expansion =>
    "Expanded " ++ Text.quoted expression ++ " to " ++ Text.quoted expansion
  | failed expression error =>
    "Failed to evaluate " ++ Text.quoted expression ++ ": " ++ error.label ++ ": " ++ error.message

end Event

end Tabletop
