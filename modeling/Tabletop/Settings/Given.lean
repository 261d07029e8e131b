/-
  Values given for settings: integers, flags and texts.

  The text of an integer is digits after an optional sign, with blanks around both.  The digits are
  brought to their plain form in steps, each of which leaves alone what it has nothing to do with:

  1. decimal places go if all of them are zeros;
  2. the zeros that begin the digits go, and the underscores among them;
  3. the other underscores go if each stands by itself and none at an end.

  The plain form is ASCII digits without a zero that could go.  What is not plain after these steps
  is no integer.
-/
import Tabletop.Numeral
import Tabletop.Text.Case

namespace Tabletop

open Text

/-- A value as it is given for a field. -/
inductive Given where
  | integer (n : Int)
  | flag (b : Bool)
  | text (s : String)
  deriving DecidableEq, Repr

/-- What is wrong with a value. -/
inductive Complaint where
  | tooSmall
  | tooLarge
  | notInteger
  | tooLong
  | notFlag
  deriving DecidableEq, Repr

/-- What a complaint is called. -/
def Complaint.label : Complaint → String
  | tooSmall => "greater_than_equal"
  | tooLarge => "less_than_equal"
  | notInteger => "int_parsing"
  | tooLong => "int_parsing_size"
  | notFlag => "bool_parsing"

namespace Given

/-! ## The plain form of digits -/

/-- A text without its decimal places, if all of them are zeros. -/
def withoutPlaces (text : List Char) : List Char :=
  match text.dropWhile (· != '.') with
  | [] => text
  | _ :: places => if places.all (· == '0') then text.takeWhile (· != '.') else text

/-- A text without the zeros that begin it and the underscores among them.  Of zeros alone the last
    character is left, be it a zero or an underscore. -/
def withoutZeros : List Char → List Char
  | '0' :: rest =>
    match rest.dropWhile (fun c => c == '0' || c == '_') with
    | [] => [rest.getLastD '0']
    | c :: more => if isDigit c then c :: more else '0' :: c :: more
  | others => others

/-- Whether two underscores stand side by side. -/
def hasDoubleUnderscore : List Char → Bool
  | '_' :: '_' :: _ => true
  | _ :: rest => hasDoubleUnderscore rest
  | [] => false

/-- A text without its underscores, if each stands by itself and none at an end. -/
def withoutUnderscores (text : List Char) : List Char :=
  if text.head? = some '_' ∨ text.getLast? = some '_' ∨ hasDoubleUnderscore text then text
  else text.filter (· != '_')

/-- The plain form of digits. -/
def plainForm (text : List Char) : List Char :=
  withoutUnderscores (withoutZeros (withoutPlaces text))

/-- The number that ASCII digits stand for. -/
def digitsValue? (digits : List Char) : Option Nat :=
  if digits ≠ [] ∧ digits.all isDigit then
    some (digits.foldl (fun value d => 10 * value + (d.toNat - 48)) 0)
  else none

/-! ## Reading -/

/-- The number that a text without a sign stands for; its plain form may have only so many
    digits. -/
def natural (text : List Char) : Except Complaint Nat :=
  match digitsValue? (plainForm text) with
  | none => .error .notInteger
  | some n => if (plainForm text).length ≤ Numeral.digitLimit then .ok n else .error .tooLong

/-- The integer that a text stands for. -/
def integerOfText (s : String) : Except Complaint Int :=
  match Numeral.withoutMargins s.toList with
  | '-' :: digits => (natural digits).map fun n => -(n : Int)
  | '+' :: digits => (natural digits).map fun n => (n : Int)
  | digits => (natural digits).map fun n => (n : Int)

/-- The integer that a value stands for; flags count as 0 and 1. -/
def integer? : Given → Except Complaint Int
  | integer n => .ok n
  | flag b => .ok (if b then 1 else 0)
  | text s => integerOfText s

/-- The words for a flag that is set. -/
def setWords : List String := ["1", "true", "t", "yes", "y", "on"]

/-- The words for a flag that is not. -/
def unsetWords : List String := ["0", "false", "f", "no", "n", "off"]

/-- The flag that a value stands for; of the words for one, the letter case does not matter. -/
def flag? : Given → Except Complaint Bool
  | flag b => .ok b
  | integer n => if n = 0 then .ok false else if n = 1 then .ok true else .error .notFlag
  | text s =>
    let word := lowered s
    if word ∈ setWords then .ok true
    else if word ∈ unsetWords then .ok false
    else .error .notFlag

example : plainForm "00_1_0.00".toList = "10".toList := by decide
example : plainForm "000".toList = "0".toList := by decide
example : digitsValue? (plainForm "1__0".toList) = none := by decide
example : (integerOfText " -0_5.0 ").toOption = some (-5) := by decide +kernel
example : (integerOfText "+-5").toOption = none := by decide +kernel

end Given

end Tabletop
