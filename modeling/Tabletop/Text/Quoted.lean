/-
  Quoted texts, for messages that name a text: `'abc'`.

  Single quotes stand around the text, double ones where it holds a single quote and no double one.
  Inside, the quote in use and the backslash are escaped; tab, line feed and carriage return have
  short escapes; every other character that has no glyph is written by its code in two, four or
  eight hexadecimal digits.
-/
import Tabletop.Text.Blank

namespace Tabletop.Text

/-- The characters above ASCII that have no glyph: controls, formats, separators, private use. -/
def glyphlessRanges : List (Nat × Nat) := [
  (0x80, 0xA0), (0xAD, 0xAD), (0x600, 0x605), (0x61C, 0x61C), (0x6DD, 0x6DD), (0x70F, 0x70F),
  (0x890, 0x891), (0x8E2, 0x8E2), (0x1680, 0x1680), (0x180E, 0x180E), (0x2000, 0x200F),
  (0x2028, 0x202F), (0x205F, 0x2064), (0x2066, 0x206F), (0x3000, 0x3000), (0xE000, 0xF8FF),
  (0xFEFF, 0xFEFF), (0xFFF9, 0xFFFB), (0x110BD, 0x110BD), (0x110CD, 0x110CD), (0x13430, 0x1343F),
  (0x1BCA0, 0x1BCA3), (0x1D173, 0x1D17A), (0xE0001, 0xE0001), (0xE0020, 0xE007F),
  (0xF0000, 0xFFFFD), (0x100000, 0x10FFFD)]

/-- A code point in at least `width` hexadecimal digits. -/
def hexadecimal (width n : Nat) : List Char :=
  let digits := Nat.toDigits 16 n
  List.replicate (width - digits.length) '0' ++ digits

/-- A character as it is written between the quotes `quote`. -/
def escapeChar (quote c : Char) : List Char :=
  let n := c.toNat
  if c = quote ∨ c = '\\' then ['\\', c]
  else if c = '\t' then ['\\', 't']
  else if c = '\n' then ['\\', 'n']
  else if c = '\r' then ['\\', 'r']
  else if n < 32 ∨ n = 127 ∨ inRanges glyphlessRanges n then
    if n < 0x100 then '\\' :: 'x' :: hexadecimal 2 n
    else if n < 0x10000 then '\\' :: 'u' :: hexadecimal 4 n
    else '\\' :: 'U' :: hexadecimal 8 n
  else [c]

/-- The single quote. -/
def singleQuote : Char := Char.ofNat 0x27

/-- The double quote. -/
def doubleQuote : Char := Char.ofNat 0x22

/-- The quote to put around a text. -/
def quoteFor (text : List Char) : Char :=
  if text.contains singleQuote && !text.contains doubleQuote then doubleQuote else singleQuote

/-- A text in quotes. -/
def quote (text : List Char) : List Char :=
  let mark := quoteFor text
  mark :: text.flatMap (escapeChar mark) ++ [mark]

/-- A string in quotes. -/
def quoted (s : String) : String := String.ofList (quote s.toList)

end Tabletop.Text
