/-
  Rendering: the text of an expression.

      (1d20+@DEX )*2 t>=15        dh a2 d0kl1        4df!

  Only what the notation needs is written: an operator within an operator stands in parentheses, a
  count is there even where it is 1, and both pools of a Hope/Fear roll are there even where they
  are empty.  A name is followed by a space, for nothing else tells where it ends.

  Not every expression has a text that is read as that expression again.  Those that do are the
  renderable ones; what is asked of them are properties of the notation:

  * numbers have no sign and at most 100 digits, names are made of capitals, digits and underscores;
  * a comparison behind the bare mark of an explosion would become its threshold;
  * behind a Fate die `dh` opens a Hope/Fear roll, and `dl` is no word;
  * a target check is that of the whole expression.
-/
import Mathlib.Data.List.Chain
import Tabletop.Fault
import Tabletop.Proofs.Grammar

namespace Tabletop

/-! ## Texts -/

/-- The text of an operand, a space behind a name. -/
def Operand.render : Operand → String
  | .number n => Numeral.decimal n
  | .named name => "@" ++ name ++ " "

/-- The text of the size of dice, with the letter before it. -/
def Sides.render : Sides Operand → String
  | .faces count => "d" ++ count.render
  | .fate => "df"

/-- The word of a reroll. -/
def RerollMode.word : RerollMode → String
  | once => "r"
  | continuous => "ro"

/-- The word of a selection. -/
def SelectionAction.word : SelectionAction → Extreme → String
  | keep, .high => "kh"
  | keep, .low => "kl"
  | drop, .high => "dh"
  | drop, .low => "dl"

/-- The text of a condition. -/
def Comparison.render (comparison : Comparison) (threshold : Operand) : String :=
  comparison.symbol ++ threshold.render

/-- The text of a modifier. -/
def Modifier.render : Modifier → String
  | .reroll m => m.mode.word ++ m.comparison.render m.threshold
  | .explosion ⟨_, none, _⟩ => "!"
  | .explosion ⟨comparison, some threshold, _⟩ => "!" ++ comparison.render threshold
  | .selection m => m.action.word m.extreme ++ m.count.render
  | .successCheck m => m.comparison.render m.threshold

/-- The text of modifiers, one behind the other. -/
def Modifier.renderAll : List Modifier → String
  | [] => ""
  | modifier :: modifiers => modifier.render ++ renderAll modifiers

namespace Expr

/-- Whether the expression is an operator on two others. -/
def isOperation : Expr → Bool
  | .binary _ _ _ => true
  | _ => false

/-- A text in parentheses, if it needs them. -/
def parenthesized (needed : Bool) (text : String) : String :=
  if needed then "(" ++ text ++ ")" else text

/-- The text of an expression. -/
def render : Expr → String
  | .number n => (Operand.number n).render
  | .named name => (Operand.named name).render
  | .dice count sides modifiers => count.render ++ sides.render ++ Modifier.renderAll modifiers
  | .hopeFear advantage disadvantage modifiers =>
    "dh a" ++ advantage.render ++ " d" ++ disadvantage.render ++ Modifier.renderAll modifiers
  | .binary operator left right =>
    parenthesized left.isOperation left.render ++ operator.symbol ++
      parenthesized right.isOperation right.render
  | .target inner comparison threshold => inner.render ++ " t" ++ comparison.render threshold
  | .missing => ""

/-- How many parentheses are open at a time in the text of an expression. -/
def nesting : Expr → Nat
  | .binary _ left right =>
    max (left.nesting + left.isOperation.toNat) (right.nesting + right.isOperation.toNat)
  | .target inner _ _ => inner.nesting
  | _ => 0

end Expr

/-! ## Renderable expressions -/

/-- A capital letter of ASCII, a digit or the underscore. -/
def isCapitalNameChar (c : Char) : Bool := ('A' ≤ c && c ≤ 'Z') || Text.isDigit c || c == '_'

/-- A number without a sign that is not too long, or a name of capitals. -/
def Operand.Renderable : Operand → Prop
  | .number n => 0 ≤ n ∧ n < Nat.pow 10 numberLengthLimit
  | .named name => name.toList ≠ [] ∧ ∀ c ∈ name.toList, isCapitalNameChar c = true

/-- The bare mark of an explosion. -/
def Modifier.bareExplosion : Modifier := .explosion ⟨.ge, none, none⟩

/-- An explosion is the bare mark, or it has a threshold and no limit of its own. -/
def Modifier.Renderable : Modifier → Prop
  | .reroll m => m.threshold.Renderable
  | .explosion ⟨comparison, none, limit⟩ => comparison = .ge ∧ limit = none
  | .explosion ⟨_, some threshold, limit⟩ => threshold.Renderable ∧ limit = none
  | .selection m => m.count.Renderable
  | .successCheck m => m.threshold.Renderable

/-- The modifiers are renderable, and no success check follows a bare mark directly. -/
structure Modifier.AllRenderable (modifiers : List Modifier) : Prop where
  each : ∀ modifier ∈ modifiers, modifier.Renderable
  apart : modifiers.IsChain fun modifier next =>
    modifier = bareExplosion → ∀ check, next ≠ .successCheck check

/-- The modifiers begin with a selection that drops dice. -/
def Modifier.BeginsWithDrop (modifiers : List Modifier) : Prop :=
  ∃ extreme count rest, modifiers = .selection ⟨.drop, extreme, count⟩ :: rest

namespace Expr

/-- An expression without target checks that is read as itself again. -/
def Plain : Expr → Prop
  | .number n => (Operand.number n).Renderable
  | .named name => (Operand.named name).Renderable
  | .dice count (.faces sides) modifiers =>
    count.Renderable ∧ sides.Renderable ∧ Modifier.AllRenderable modifiers
  | .dice count .fate modifiers =>
    count.Renderable ∧ Modifier.AllRenderable modifiers ∧ ¬Modifier.BeginsWithDrop modifiers
  | .hopeFear advantage disadvantage modifiers =>
    advantage.Renderable ∧ disadvantage.Renderable ∧ Modifier.AllRenderable modifiers
  | .binary operator left right =>
    operator ∈ Grammar.arithmetic ∧ left.Plain ∧ right.Plain
  | .target _ _ _ => False
  | .missing => False

/-- An expression that is read as itself again: a plain one, or one with a target check as a
    whole. -/
def Renderable : Expr → Prop
  | .target inner _ threshold => inner.Plain ∧ threshold.Renderable
  | expr => expr.Plain

end Expr

end Tabletop
