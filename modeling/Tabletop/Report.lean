/-
  Reports: all there is to say about an evaluated expression.

  `toDatum` writes a report as plain data.  What is not set is left out, by three rules: flags that
  are off, a role that is absent or empty, and the optional parts of a report that are absent.
  An optional part that is present stays, be it zero or empty.
-/
import Tabletop.Datum
import Tabletop.Roll.Expr

namespace Tabletop

/-- What came of an expression.

    `successes`, `verdict`, `hope`, `fear` and `tag` are there when the expression had something to
    say about them, `used` holds the variables looked up, and `error` says why there is no roll. -/
structure Report where
  expression : String
  total : Int
  breakdown : String
  rolls : List Die := []
  successes : Option Int := none
  verdict : Option Verdict := none
  hope : Option Int := none
  fear : Option Int := none
  tag : Option String := none
  used : Bindings Int := []
  error : Option String := none
  deriving DecidableEq, Repr

namespace Report

/-- Whether the report is about a failure. -/
def isError (report : Report) : Bool := report.error.isSome

/-- The report about a failure. -/
def failure (expression message : String) : Report :=
  { expression, total := 0, breakdown := "Error: " ++ message, error := some message }

end Report

/-! ## Reports as data -/

namespace Sides

/-- The size of a die as data. -/
def toDatum : Sides Int → Datum
  | .faces n => .integer n
  | .fate => .text "F"

end Sides

namespace Die

/-- The flags of a die by name, in the order in which they are listed. -/
def flags (die : Die) : List (String × Bool) := [
  ("exploded", die.exploded), ("dropped", die.dropped), ("rerolled", die.rerolled),
  ("success", die.success)]

/-- The names of the flags that are set. -/
def flagNames (die : Die) : List String := (die.flags.filter (·.2)).map (·.1)

/-- The role of a die, if it is there and not empty. -/
def namedRole (die : Die) : Option String := die.role.filter (· != "")

/-- A die as data. -/
def toDatum (die : Die) : Datum :=
  .record <|
    [("sides", die.sides.toDatum), ("result", .integer die.face)] ++
      die.flagNames.map (fun name => (name, .flag true)) ++
      (die.namedRole.map fun role => ("role", Datum.text role)).toList

end Die

namespace Verdict

/-- A verdict as data. -/
def toDatum (verdict : Verdict) : Datum :=
  .record [("op", .text verdict.comparison.symbol), ("value", .integer verdict.threshold),
    ("pass", .flag verdict.passed)]

end Verdict

namespace Report

/-- A field that is there when its value is. -/
def field (name : String) (value : Option Datum) : List (String × Datum) :=
  (value.map fun datum => (name, datum)).toList

/-- A report as data. -/
def toDatum (report : Report) : Datum :=
  .record <|
    [("expression", .text report.expression), ("total", .integer report.total),
      ("breakdown", .text report.breakdown), ("rolls", .list (report.rolls.map Die.toDatum)),
      ("variables", .record (report.used.map fun v => (v.1, .integer v.2)))] ++
    field "successes" (report.successes.map .integer) ++
    field "target" (report.verdict.map Verdict.toDatum) ++
    field "hope" (report.hope.map .integer) ++
    field "fear" (report.fear.map .integer) ++
    field "tag" (report.tag.map .text) ++
    field "error" (report.error.map .text)

end Report

end Tabletop
