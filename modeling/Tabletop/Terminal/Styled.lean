/-
  Styled texts: a text with spans of style, as they were laid on.

  A style that is laid on a text covers what the text holds by then; what is put behind it later
  has no style, or one of its own.  Nothing is laid on an empty text.  The face of a die and the
  headline of a report are styled texts.
-/
import Tabletop.Breakdown
import Tabletop.Text.Case

namespace Tabletop

open Numeral

namespace Terminal

/-- A style laid on the characters from `start` up to `stop`. -/
structure Span where
  start : Nat
  stop : Nat
  style : String
  deriving DecidableEq, Repr

/-- A text with styles laid on it. -/
structure Styled where
  plain : String := ""
  spans : List Span := []
  deriving DecidableEq, Repr

namespace Styled

/-- A text without styles. -/
def ofString (s : String) : Styled := { plain := s }

/-- Lays a style on all that the text holds by now. -/
def stylize (style : String) (text : Styled) : Styled :=
  if text.plain.isEmpty then text
  else { text with spans := text.spans ++ [⟨0, text.plain.length, style⟩] }

/-- Puts a piece behind the text. -/
def append (piece : String) (text : Styled) : Styled := { text with plain := text.plain ++ piece }

/-- Puts a piece with a style of its own behind the text. -/
def appendStyled (piece style : String) (text : Styled) : Styled :=
  if piece.isEmpty then text
  else
    let start := text.plain.length
    { plain := text.plain ++ piece, spans := text.spans ++ [⟨start, start + piece.length, style⟩] }

end Styled

/-! ## Dice -/

/-- What a die is called: by its role, or by its size. -/
def dieLabel (die : Die) : String :=
  match die.namedRole with
  | some role => Text.titled role
  | none => "d" ++ die.sides.text

/-- The face of a die: struck out when it does not count, coloured for a success or an explosion,
    and with the marks of both. -/
def dieText (die : Die) : Styled :=
  let face := Styled.ofString (decimal die.face)
  let face :=
    if die.dropped || die.rerolled then face.stylize "dim strike"
    else if die.success then face.stylize "bold green"
    else if die.exploded then face.stylize "bold yellow"
    else face
  let face := if die.exploded then face.append "!" else face
  if die.success then face.append "✓" else face

/-- What became of a die. -/
def dieStatus (die : Die) : String := ", ".intercalate die.flagNames

/-! ## Headlines -/

/-- The style of a Hope/Fear tag. -/
def tagStyle (tag : String) : String :=
  if tag = "Hope" then "bold blue"
  else if tag = "Fear" then "bold magenta"
  else if tag = "Critical" then "bold yellow"
  else "bold"

/-- The figures of a report, its tag and its verdict. -/
def headline (report : Report) : Styled :=
  let text : Styled := match report.successes with
    | some successes =>
      (Styled.appendStyled (decimal successes ++ " successes") "bold cyan" {}).appendStyled
        ("  (total " ++ decimal report.total ++ ")") "dim"
    | none => Styled.appendStyled (decimal report.total) "bold cyan" {}
  let text : Styled := match report.tag.filter (· != "") with
    | some tag => text.appendStyled ("  [" ++ tag ++ "]") (tagStyle tag)
    | none => text
  match report.verdict with
  | some verdict =>
    text.appendStyled (" " ++ Breakdown.verdictText verdict)
      (if verdict.passed then "bold green" else "bold red")
  | none => text

end Terminal

end Tabletop
