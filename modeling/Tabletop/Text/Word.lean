/-
  The characters of words, names and numbers.

  Three classes, from wide to narrow: a word character is any letter, digit or numeral, or the
  underscore; a name is written with small ASCII letters, digits and the underscore; a digit of the
  dice notation is an ASCII digit.  `decimalValue?` is wider than the last: it knows the digit rows
  of every script, for numbers that come from outside the notation.
-/
import Tabletop.Text.WordTable
import Tabletop.Text.Blank

namespace Tabletop.Text

/-- A letter, digit or numeral, or the underscore. -/
def isWordChar (c : Char) : Bool :=
  if c.toNat < 128 then c.isAlphanum || c == '_' else inRanges alphanumericRanges c.toNat

/-- An ASCII digit. -/
def isDigit (c : Char) : Bool := '0' ≤ c && c ≤ '9'

/-- A small ASCII letter, an ASCII digit or the underscore: what names are written with. -/
def isNameChar (c : Char) : Bool := ('a' ≤ c && c ≤ 'z') || isDigit c || c == '_'

/-- The value of a decimal digit of any script. -/
def decimalValue? (c : Char) : Option Nat :=
  if c.toNat < 128 then if isDigit c then some (c.toNat - 48) else none
  else (digitZeros.find? fun z => z ≤ c.toNat && c.toNat < z + 10).map (c.toNat - ·)

example : decimalValue? '7' = some 7 := by decide
example : decimalValue? '٣' = some 3 := by decide +kernel
example : isWordChar 'é' = true := by decide +kernel

end Tabletop.Text
