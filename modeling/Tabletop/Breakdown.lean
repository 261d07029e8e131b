/-
  Breakdowns: the dice of a report and what they came to, on one line.

      3d6 (4, 5, 6) drop(1) = 15
      4d6 (5✓, 2, 6✓, 3) = 2 successes
      2d12: Hope(7) + Fear(7) = 14 [Critical]
      1d20 (10) = 15 vs >=15 → PASS

  Dice of one kind stand together, the kinds in the order in which they first appear.  A kind is a
  size of dice, or a role; hope and fear are one kind and are written in pairs.  Nothing but the
  dice and the figures handed over enters the text.
-/
import Tabletop.Report

namespace Tabletop

open Numeral

namespace Breakdown

/-! ## Groups -/

/-- The kind of the dice of hope and fear. -/
def pairKind : String := "hope_fear"

/-- The kind of a die. -/
def kind (die : Die) : String :=
  match die.namedRole with
  | some role => if role = Role.hope ∨ role = Role.fear then pairKind else role
  | none => "d" ++ die.sides.text

/-- The kinds of dice, each once, in the order of their first die. -/
def kinds (dice : List Die) : List String := (dice.map kind).eraseDups

/-- The dice of one kind, in order. -/
def ofKind (key : String) (dice : List Die) : List Die := dice.filter (kind · == key)

/-! ## Faces -/

/-- A face: those of the Fate die are signs. -/
def face (die : Die) : String :=
  if die.sides = .fate then
    if die.face = -1 then "-" else if die.face = 0 then "0" else if die.face = 1 then "+"
    else decimal die.face
  else decimal die.face

/-- A face with the marks of explosions and successes. -/
def markedFace (die : Die) : String :=
  face die ++ (if die.exploded then "!" else "") ++ (if die.success then "✓" else "")

/-- Faces in parentheses after a word; nothing when there are none. -/
def listed (word : String) (faces : List String) : String :=
  if faces.isEmpty then "" else word ++ "(" ++ ", ".intercalate faces ++ ")"

/-! ## Parts -/

/-- The part of an ordinary kind: how many dice count, then those that count, those dropped and
    those rerolled. -/
def ordinaryPart (key : String) (dice : List Die) : String :=
  let active := dice.filter (·.active)
  decimalNat active.length ++ key ++ listed " " (active.map markedFace) ++
    listed " drop" ((dice.filter (·.dropped)).map face) ++
    listed " reroll" ((dice.filter (·.rerolled)).map face)

/-- The faces of the dice with a role. -/
def facesOf (role : String) (dice : List Die) : List Int :=
  (dice.filter (·.role == some role)).map (·.face)

/-- The parts of the dice of hope and fear, one for each pair. -/
def pairParts (dice : List Die) : List String :=
  List.zipWith
    (fun hope fear => "2d12: Hope(" ++ decimal hope ++ ") + Fear(" ++ decimal fear ++ ")")
    (facesOf Role.hope dice) (facesOf Role.fear dice)

/-- The part of a pool: its dice, and the best of them with the sign that it counts with. -/
def poolPart (role : String) (dice : List Die) : String :=
  decimalNat dice.length ++ "d6 " ++ role ++ " (" ++
    ", ".intercalate (dice.map fun die => decimal die.face) ++ ") → " ++
    (if role = Role.disadvantage then "-" else "+") ++ decimal (Rolling.best dice)

/-- The parts of the dice of one kind. -/
def partsOf (key : String) (dice : List Die) : List String :=
  if key = pairKind then pairParts dice
  else if key = Role.advantage ∨ key = Role.disadvantage then [poolPart key dice]
  else [ordinaryPart key dice]

/-- The parts of all dice. -/
def parts (dice : List Die) : List String :=
  (kinds dice).flatMap fun key => partsOf key (ofKind key dice)

/-! ## The line -/

/-- What the dice came to: the number of successes where successes are counted, else the total. -/
def figure (total : Int) : Option Int → String
  | some successes => decimal successes ++ " successes"
  | none => decimal total

/-- The word for whether a check was passed. -/
def passWord (passed : Bool) : String := if passed then "PASS" else "FAIL"

/-- The check that a verdict is about, and how it went. -/
def verdictText (verdict : Verdict) : String :=
  " vs " ++ verdict.comparison.symbol ++ decimal verdict.threshold ++ " → " ++
    passWord verdict.passed

/-- The breakdown of dice and figures. -/
def text (dice : List Die) (total : Int) (successes : Option Int) (tag : Option String)
    (verdict : Option Verdict) : String :=
  let ps := parts dice
  (if ps.isEmpty then "" else " + ".intercalate ps ++ " ") ++ "= " ++ figure total successes ++
    (match tag.filter (· != "") with | some t => " [" ++ t ++ "]" | none => "") ++
    (match verdict with | some v => verdictText v | none => "")

/-- The integers that a breakdown writes out. -/
def numbers (dice : List Die) (total : Int) (successes : Option Int)
    (verdict : Option Verdict) : List Int :=
  dice.map (·.face) ++
    dice.filterMap (fun die => match die.namedRole, die.sides with
      | none, .faces n => some n
      | _, _ => none) ++
    [successes.getD total] ++ (verdict.map (·.threshold)).toList

end Breakdown

end Tabletop
