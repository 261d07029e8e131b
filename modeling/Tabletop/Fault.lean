/-
  What can go wrong, by cause.

  1. An `ExprError` is a fault of the expression, or of its values: whoever evaluates an expression
     turns it into a report that says so.
  2. A `Defect` is not about the expression: an integer too long to be written, a source of draws
     that has none, a tree or a list of tokens that no text gives rise to.  It ends the work.

  The wording stands in the `message` functions and nowhere else.
-/
import Tabletop.Numeral
import Tabletop.Text.Quoted
import Tabletop.Token

namespace Tabletop

open Numeral

/-! ## Faults of the notation -/

/-- Why a token does not fit the grammar. -/
inductive MisfitCause where
  | expected (kind : TokenKind)
  | longNumber
  | unexpected
  | sidesMissing
  | operandMissing
  | nameMissing
  | nestedTooDeep (limit : Int)
  deriving DecidableEq, Repr

/-- A token that does not fit the grammar. -/
structure Misfit where
  cause : MisfitCause
  token : Token
  deriving DecidableEq, Repr

/-- The most characters that a number in the notation has. -/
def numberLengthLimit : Nat := 100

/-- What is said of a token that does not fit. -/
def Misfit.message (misfit : Misfit) : String :=
  let got := misfit.token.kind.label
  let place := " at position " ++ decimal misfit.token.position
  match misfit.cause with
  | .expected kind => "Expected " ++ kind.label ++ ", got " ++ got ++ place
  | .longNumber => "Number longer than " ++ decimalNat numberLengthLimit ++ " digits" ++ place
  | .unexpected => "Unexpected token " ++ got ++ place
  | .sidesMissing => "Expected number or variable for dice sides" ++ place
  | .operandMissing => "Expected number or variable, got " ++ got ++ place
  | .nameMissing => "Expected variable name after '@'" ++ place
  | .nestedTooDeep limit => "Parentheses nested deeper than " ++ decimal limit ++ place

/-! ## Faults of the values -/

/-- The quantities that have a range. -/
inductive Quantity where
  | dice
  | sides
  | advantage
  | disadvantage
  deriving DecidableEq, Repr

/-- What a quantity is called in messages. -/
def Quantity.label : Quantity → String
  | dice => "Dice count"
  | sides => "Dice sides"
  | advantage => "Advantage dice"
  | disadvantage => "Disadvantage dice"

/-- A value that no roll can be made with. -/
inductive Hazard where
  | divisionByZero
  | unknownOperator (symbol : String)
  | tooLong
  | outOfRange (what : Quantity) (minimum maximum given : Int)
  | negativeSelection (given : Int)
  deriving DecidableEq, Repr

namespace Hazard

/-- What a hazard says. -/
def message : Hazard → String
  | divisionByZero => "Division by zero"
  | unknownOperator symbol => "Unknown operator '" ++ symbol ++ "'"
  | tooLong => "Expression is too long to evaluate"
  | outOfRange what minimum maximum given =>
    what.label ++ " must be between " ++ decimal minimum ++ " and " ++ decimal maximum ++
      ", got " ++ decimal given
  | negativeSelection given => "Keep/drop count cannot be negative, got " ++ decimal given

/-- The integers that the message of a hazard writes out. -/
def numbers : Hazard → List Int
  | outOfRange _ minimum maximum given => [minimum, maximum, given]
  | negativeSelection given => [given]
  | _ => []

end Hazard

/-! ## The two classes -/

/-- A fault of an expression. -/
inductive ExprError where
  | stray (char : Char) (position : Nat)
  | misfit (misfit : Misfit)
  | undefined (name : String)
  | hazard (hazard : Hazard)
  deriving DecidableEq, Repr

namespace ExprError

/-- What a fault of an expression says. -/
def message : ExprError → String
  | stray char position =>
    "Unrecognized character '" ++ String.ofList [char] ++ "' at position " ++ decimalNat position
  | misfit m => m.message
  | undefined name => "Variable @" ++ name ++ " is not defined"
  | hazard h => h.message

/-- What a fault of an expression is called in the log. -/
def label : ExprError → String
  | stray _ _ => "LexAnomaly"
  | misfit _ => "ParseFailure"
  | undefined _ => "UndefinedVariable"
  | hazard _ => "ArithmeticHazard"

end ExprError

/-- A fault that is not about an expression. -/
inductive Defect where
  | tooManyDigits
  | noDraws
  | missingNode
  | unknownComparison (text : String)
  | unreadableNumber (text : String)
  deriving DecidableEq, Repr

/-- What a defect says. -/
def Defect.message : Defect → String
  | tooManyDigits =>
    "Exceeds the limit (" ++ decimalNat digitLimit ++ " digits) for integer string conversion; " ++
      "use sys.set_int_max_str_digits() to increase the limit"
  | noDraws => "no draws given"
  | missingNode => "Unknown node type: NoneType"
  | unknownComparison text => Text.quoted text ++ " is not a valid Comparison"
  | unreadableNumber text =>
    "invalid literal for int() with base 10: " ++
      String.ofList ((Text.quote text.toList).take 200)

/-- A fault of either class. -/
inductive Fault where
  | expr (error : ExprError)
  | defect (defect : Defect)
  deriving DecidableEq, Repr

/-- What a fault says. -/
def Fault.message : Fault → String
  | expr error => error.message
  | defect d => d.message

end Tabletop
