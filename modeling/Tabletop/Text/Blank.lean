/-
  Blanks: the characters that separate words, and the three things done with them.

  1. `trim` takes the blanks off both ends.
  2. `squeeze` turns every run of blanks inside a text into one space and drops those at the ends.
  3. `withoutBlanks` drops all of them.

  There are few blanks.  Larger sets of characters are lists of ranges of code points (`inRanges`).
-/

namespace Tabletop.Text

/-- A blank: the ASCII controls from tab to carriage return and from file to unit separator, the
    space, next line, and the spaces and separators of the other blocks. -/
def isBlank (c : Char) : Bool :=
  let n := c.toNat
  (9 ≤ n && n ≤ 13) || (28 ≤ n && n ≤ 32) || n == 0x85 || n == 0xA0 || n == 0x1680 ||
    (0x2000 ≤ n && n ≤ 0x200A) || n == 0x2028 || n == 0x2029 || n == 0x202F || n == 0x205F ||
    n == 0x3000

/-- A text without the blanks at its beginning. -/
def trimLeft (text : List Char) : List Char := text.dropWhile isBlank

/-- A text without the blanks at its ends. -/
def trim (text : List Char) : List Char := (trimLeft (trimLeft text).reverse).reverse

/-- A text without its blanks. -/
def withoutBlanks (text : List Char) : List Char := text.filter fun c => !isBlank c

/-- The words of a text with one space for each gap between them, `gap` telling whether blanks
    were passed since the last character written. -/
def squeezeFrom (gap : Bool) : List Char → List Char
  | [] => []
  | c :: rest =>
    if isBlank c then squeezeFrom true rest
    else if gap then ' ' :: c :: squeezeFrom false rest
    else c :: squeezeFrom false rest

/-- A text with one space for each run of blanks, and none at its ends. -/
def squeeze (text : List Char) : List Char := squeezeFrom false (trimLeft text)

/-! ## The same on strings -/

/-- A string without the blanks at its ends. -/
def trimmed (s : String) : String := String.ofList (trim s.toList)

example : squeeze "  a \t b\n".toList = "a b".toList := by decide
example : trim " a b ".toList = "a b".toList := by decide
example : withoutBlanks " a b ".toList = "ab".toList := by decide

/-! ## Ranges of code points -/

/-- Whether the code point lies in one of the ranges, ends included. -/
def inRanges (ranges : List (Nat × Nat)) (n : Nat) : Bool :=
  ranges.any fun r => r.1 ≤ n && n ≤ r.2

end Tabletop.Text
