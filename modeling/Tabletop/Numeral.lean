/-
  Integers as texts.

  1. `decimal` writes an integer; `fits` says whether it is short enough to be written at all.  A
     result whose numbers do not fit is refused by those who ask for its text, so `decimal` itself
     is total.
  2. `read?` reads a numeral from outside the dice notation: decimal digits of any script, single
     underscores between digits, a sign, blanks around.  It reads no more digits than are written.

  The dice notation itself has ASCII digits only, on which both agree.
-/
import Tabletop.Text.Blank
import Tabletop.Text.Word

namespace Tabletop.Numeral

open Text

/-- The most digits that a numeral is read or written with. -/
def digitLimit : Nat := 4300

/-- Whether an integer can be written with at most `digitLimit` digits. -/
def fits (n : Int) : Bool := n.natAbs < Nat.pow 10 digitLimit

/-! ## Writing -/

/-- The decimal numeral of a natural number. -/
def decimalNat (n : Nat) : String := String.ofList (Nat.toDigits 10 n)

/-- The decimal numeral of an integer, a minus sign before a negative one. -/
def decimal : Int → String
  | .ofNat n => decimalNat n
  | .negSucc n => "-" ++ decimalNat (n + 1)

/-! ## Reading -/

/-- Reads digits to the end, `value` being that of the digits before; an underscore may stand
    between two digits. -/
def readDigits (value : Nat) : List Char → Option Nat
  | [] => some value
  | '_' :: c :: rest => (decimalValue? c).bind fun d => readDigits (10 * value + d) rest
  | c :: rest => (decimalValue? c).bind fun d => readDigits (10 * value + d) rest

/-- Reads a numeral without a sign. -/
def readNat? : List Char → Option Nat
  | [] => none
  | c :: rest =>
    if (c :: rest).countP (· != '_') ≤ digitLimit then
      (decimalValue? c).bind fun d => readDigits d rest
    else none

/-- The blanks that may stand around a numeral: all but the four separators from file to unit. -/
def isMargin (c : Char) : Bool := isBlank c && !(28 ≤ c.toNat && c.toNat ≤ 31)

/-- A text without the blanks around a numeral. -/
def withoutMargins (text : List Char) : List Char :=
  ((text.dropWhile isMargin).reverse.dropWhile isMargin).reverse

/-- Reads a numeral with an optional sign, and blanks around it. -/
def read? (text : List Char) : Option Int :=
  match withoutMargins text with
  | '-' :: digits => (readNat? digits).map fun n => -(n : Int)
  | '+' :: digits => (readNat? digits).map fun n => (n : Int)
  | digits => (readNat? digits).map fun n => (n : Int)

example : read? " -1_0 ".toList = some (-10) := by decide +kernel
example : read? "1__0".toList = none := by decide +kernel
example : read? "٣".toList = some 3 := by decide +kernel
example : decimal (-12) = "-12" := by decide

end Tabletop.Numeral
