/-
  From the text of an expression to its report.

  1. `evaluate` expands aliases, reads and rolls.  A fault of the expression becomes a report that
     says what is wrong; only a defect ends without one.
  2. A roll computes with integers of any size.  What is said of it writes some of them out, be it
     the breakdown or the message of a hazard, and an integer too long to be written is a defect.
  3. `validate` goes the same way up to the rolling, and looks whether the variables are defined.
-/
import Tabletop.Alias
import Tabletop.Breakdown
import Tabletop.Expr.Reader
import Tabletop.Notation.Piece
import Tabletop.Settings
import Tabletop.Variables

namespace Tabletop

open Text

/-! ## Reading -/

/-- The expression that a text stands for, aliases left alone, or a fault; with what was noted. -/
def Expr.ofText (strict : Bool) (maxDepth : Int) (text : String) :
    Except Fault Expr × List Event :=
  match readTokens strict text with
  | .error e => (.error (.expr e), [])
  | .ok tokens =>
    let (expr, notes) := Expr.ofTokens maxDepth tokens
    (expr, readingEvents strict text ++ notes.toList)

/-- The same as a step of a roll. -/
def Rolling.read (strict : Bool) (maxDepth : Int) (text : String) : Rolling Expr := fun ledger =>
  let (expr, events) := Expr.ofText strict maxDepth text
  let ledger := { ledger with events := ledger.events ++ events.toArray }
  match expr with
  | .ok e => .ok e ledger
  | .error fault => .error fault ledger

/-! ## Rolling -/

/-- The report of a tally, if its figures can be written. -/
def Report.ofTally (expression : String) (tally : Tally) (used : Bindings Int) :
    Except Defect Report :=
  let tag := tally.pair.map (·.tag)
  if (Breakdown.numbers tally.dice tally.value tally.successes tally.verdict).all
      Numeral.fits then
    .ok {
      expression
      total := tally.value
      breakdown :=
        Breakdown.text tally.dice tally.value tally.successes tag tally.verdict
      rolls := tally.dice
      successes := tally.successes
      verdict := tally.verdict
      hope := tally.pair.map (·.hope)
      fear := tally.pair.map (·.fear)
      tag
      used }
  else .error .tooManyDigits

/-- A roll, but that a hazard whose message cannot be written is a defect. -/
def Rolling.withMessage (roll : Rolling Tally) : Rolling Tally := fun ledger =>
  match roll ledger with
  | .error (.expr (.hazard hazard)) ledger =>
    if hazard.numbers.all Numeral.fits then .error (.expr (.hazard hazard)) ledger
    else .error (.defect .tooManyDigits) ledger
  | result => result

/-- Rolls an expression that was read, and reports on it; variables looked up before do not
    count. -/
def Expr.evaluate (setup : Setup) (expr : Expr) (expression : String) : Rolling Report := do
  modify fun ledger => { ledger with used := [] }
  let tally ← (expr.roll setup setup.depth).withMessage
  match Report.ofTally expression tally (← get).used with
  | .ok report => return report
  | .error defect => throw (.defect defect)

/-- Makes a report of a fault of the expression, and notes the fault. -/
def Rolling.orFailure (expression : String) (roll : Rolling Report) : Rolling Report :=
  fun ledger =>
    match roll ledger with
    | .ok report ledger => .ok report ledger
    | .error (.expr e) ledger =>
      .ok (Report.failure expression e.message)
        { ledger with events := ledger.events.push (.failed expression e) }
    | .error (.defect d) ledger => .error (.defect d) ledger

/-- What rolls are made with under the given settings. -/
def Settings.setup (settings : Settings) (table : Bindings Int) (source : Source) (depth : Nat) :
    Setup :=
  ⟨source, settings.limits, table.upperCased, depth⟩

/-- Evaluates the text of an expression; `depth` is how deep the rolling may go. -/
def evaluate (settings : Settings) (table : Bindings Int) (source : Source) (depth : Nat)
    (expression : String) : Rolling Report :=
  Rolling.orFailure expression do
    let expanded := withoutAliases expression
    if expanded ≠ lowered (trimmed expression) then Rolling.note (.expanded expression expanded)
    let expr ← Rolling.read settings.strict settings.maxDepth expanded
    expr.evaluate (settings.setup table source depth) expression

/-! ## Validating -/

/-- The first name that a table has no value for, letter case aside. -/
def firstUndefined (names : List String) (table : Bindings Int) : Option String :=
  names.find? fun name => !(table.upperCased.names.contains name)

/-- Whether the text of an expression can be read and, with a table, has its variables defined;
    with what was noted. -/
def validate (settings : Settings) (table : Option (Bindings Int)) (expression : String) :
    Except Fault Unit × List Event :=
  let expanded := withoutAliases expression
  let (expr, events) := Expr.ofText settings.strict settings.maxDepth expanded
  let outcome : Except Fault Unit :=
    match expr with
    | .error fault => .error fault
    | .ok _ =>
      match table.bind (firstUndefined (variablesOf expanded)) with
      | some name => .error (.expr (.undefined name))
      | none => .ok ()
  (outcome, events)

end Tabletop
