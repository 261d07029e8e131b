/-
  Views: messages, reports, the examples and the help, each as the lines that a terminal shows.
-/
import Tabletop.Help
import Tabletop.Terminal.Layout
import Tabletop.Terminal.Styled

namespace Tabletop

open Numeral

namespace Terminal

/-- The lines of a message. -/
def messageLines (text : String) : List String := linesOf text

/-- The lines of an error message. -/
def errorLines (text : String) : List String := linesOf ("Error: " ++ text)

/-- The table of dice, numbered from one. -/
def diceTable (dice : List Die) : List String :=
  openTable [
    { header := "#", alignRight := true, cells := (List.range dice.length).map fun i =>
        decimalNat (i + 1) },
    { header := "Die", cells := dice.map dieLabel },
    { header := "Result", alignRight := true, cells := dice.map fun die => (dieText die).plain },
    { header := "Status", cells := dice.map dieStatus }]

/-- Variables with their values, on one line. -/
def variablesLine (used : Bindings Int) : String :=
  ", ".intercalate (used.map fun v => "@" ++ v.1 ++ "=" ++ decimal v.2)

/-- The lines of a report: its figures and breakdown in a panel and, if asked for, the table of its
    dice.  A failure shows its message, or where that is empty its breakdown. -/
def reportLines (width : Nat) (showDice : Bool) (r : Report) : List String :=
  match r.error with
  | some text => errorLines (if text.isEmpty then r.breakdown else text)
  | none =>
    let body := linesOf (headline r).plain ++ linesOf r.breakdown ++
      (if r.used.isEmpty then [] else linesOf (variablesLine r.used))
    panel width r.expression body ++
      (if showDice && !r.rolls.isEmpty then diceTable r.rolls else [])

/-- What a category of examples is called. -/
def categoryLabel (category : String) : String :=
  Text.titled (category.map fun c => if c = '_' then '/' else c)

/-- The table of examples: expressions one below the other, and beside the first one their
    category. -/
def exampleLines (entries : List (String × List String)) : List String :=
  let heights := entries.map fun entry => max 1 entry.2.length
  let categories := (entries.zip heights).flatMap fun (entry, height) =>
    categoryLabel entry.1 :: List.replicate (height - 1) ""
  let expressions := entries.flatMap fun entry => if entry.2.isEmpty then [""] else entry.2
  framedTable "Example Expressions" [
    { header := "Category", cells := categories },
    { header := "Expressions", cells := expressions }]

/-- Help on the dice notation, in a panel. -/
def helpPanel (width : Nat) (text : String) : List String :=
  panel width "Dice Notation" (linesOf text)

/-- Lines as they are printed. -/
def printed (lines : List String) : String := String.join (lines.map (· ++ "\n"))

end Terminal

end Tabletop
