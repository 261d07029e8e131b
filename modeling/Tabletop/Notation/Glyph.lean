/-
  Glyphs: the dice notation without regard to case and blanks.

  `4 D6` and `4d6` are one notation, so a text is lowered and its blanks are dropped before anything
  is read.  One thing is remembered of the blanks: a variable name ends where one stood, so that
  `dh a@adv d@dis` has two names.  Each glyph therefore carries a mark.

  The marks are taken from the text as it was given and laid on the lowered one in order.  Lowering
  makes no character disappear, so there are enough glyphs for the marks; where it makes two
  characters of one, the marks behind it come to lie one glyph too early.
-/
import Tabletop.Text.Blank
import Tabletop.Text.Case

namespace Tabletop

open Text

/-- A character of the notation, and whether it is marked as coming after a blank. -/
structure Glyph where
  char : Char
  opensWord : Bool
  deriving DecidableEq, Repr

/-- A text in lower case without blanks. -/
def normalForm (text : List Char) : List Char := withoutBlanks (lower text)

/-- For each character of a text that is no blank: whether it comes after a blank, `afterBlank`
    telling this of the beginning. -/
def wordMarks (afterBlank : Bool) : List Char → List Bool
  | [] => []
  | c :: rest =>
    if isBlank c then wordMarks true rest else afterBlank :: wordMarks false rest

namespace Glyph

/-- Characters with marks laid on them in order; those beyond the last mark open no word. -/
def zip : List Char → List Bool → List Glyph
  | [], _ => []
  | c :: cs, [] => ⟨c, false⟩ :: zip cs []
  | c :: cs, mark :: marks => ⟨c, mark⟩ :: zip cs marks

/-- The glyphs are the characters, whatever the marks are. -/
theorem map_char_zip (cs : List Char) (marks : List Bool) : (zip cs marks).map (·.char) = cs := by
  fun_induction zip cs marks <;> simp_all

/-- There are as many glyphs as characters. -/
theorem length_zip (cs : List Char) (marks : List Bool) : (zip cs marks).length = cs.length := by
  simpa using congrArg List.length (map_char_zip cs marks)

end Glyph

/-- The glyphs of a text.  Blanks at its beginning mark nothing. -/
def glyphs (text : List Char) : List Glyph :=
  Glyph.zip (normalForm text) (wordMarks false (trimLeft text))

/-- Without their marks the glyphs are the normal form. -/
theorem map_char_glyphs (text : List Char) : (glyphs text).map (·.char) = normalForm text :=
  Glyph.map_char_zip _ _

example : (glyphs " a B".toList).map (·.opensWord) = [false, true] := by decide

end Tabletop
