/-
  The command line: `roll`, `validate`, `vars`, `notation` and `examples`.

  A run is a function of the words on the command line, the settings that were read and the source
  of draws.  It ends with an exit code and what it printed: 0 when all went well, 1 when the
  expression is at fault, 2 when the words are; settings that could not be read, and defects, end it
  without either.  Whether all events are to be logged is known before the subcommand is looked
  into, and the settings are asked for that unless the words already say so.
-/
import Tabletop.CommandLine.Options
import Tabletop.Evaluation
import Tabletop.Settings.Reader
import Tabletop.Terminal.View

namespace Tabletop

namespace CommandLine

/-! ## Ends of a run -/

/-- Why a run ends without an exit code. -/
inductive Failure where
  | settings (complaints : List (Field × Complaint))
  | defect (defect : Defect)
  deriving DecidableEq, Repr

/-- The exit code of a run, and what it printed. -/
structure Exit where
  code : Nat
  output : String
  deriving DecidableEq, Repr

namespace Exit

/-- All went well. -/
def success (lines : List String) : Exit := ⟨0, Terminal.printed lines⟩

/-- The expression is at fault. -/
def failure (lines : List String) : Exit := ⟨1, Terminal.printed lines⟩

/-- The words on the command line are at fault. -/
def usage : Exit := ⟨2, ""⟩

end Exit

/-- A run: how it ended, whether it was to log all events, and what its roll left behind. -/
structure Run where
  debug : Bool
  exit : Except Failure Exit
  ledger : Ledger := {}

/-- What a run works with: the settings, or what is wrong with them; where draws come from and how
    deep rolling may go; and how wide the terminal is. -/
structure Surroundings where
  settings : Except (List (Field × Complaint)) Settings
  source : Source
  depth : Nat
  width : Nat

/-! ## Subcommands -/

/-- The option that gives a variable. -/
def variableOption : OptionSpec := { long := "var", letter := some 'v', takesValue := true }

/-- The option that asks for the report as data. -/
def jsonOption : OptionSpec := { long := "json" }

/-- The option that leaves the table of dice out. -/
def quietOption : OptionSpec := { long := "quiet", letter := some 'q' }

/-- The option that asks for a log of all events. -/
def debugOption : OptionSpec := { long := "debug" }

/-- What a subcommand ends with, and what its roll leaves behind. -/
abbrev Ending := Except Failure Exit × Ledger

/-- An ending without a roll. -/
def ending (exit : Exit) : Ending := (.ok exit, {})

/-- Goes on with the settings in force. -/
def withSettings (around : Surroundings) (go : Settings → Ending) : Ending :=
  match around.settings with
  | .ok settings => go settings
  | .error complaints => (.error (.settings complaints), {})

/-- Goes on with the one operand that there must be. -/
def withOperand (words : Words) (go : String → Ending) : Ending :=
  match words.operands with
  | [operand] => go operand
  | _ => ending .usage

/-- What is printed of a report. -/
def printedReport (around : Surroundings) (words : Words) (report : Report) : List String :=
  if words.has "json" then [report.toDatum.render]
  else Terminal.reportLines around.width (!words.has "quiet") report

/-- Rolls an expression and prints the report. -/
def rollCommand (around : Surroundings) (words : Words) : Ending :=
  withOperand words fun expression =>
    match tableOfOptions (words.values "var") with
    | .error _ => ending .usage
    | .ok table =>
      withSettings around fun settings =>
        match evaluate settings table around.source around.depth expression {} with
        | .error (.defect d) ledger => (.error (.defect d), ledger)
        | .error (.expr e) ledger => (.ok (.failure (Terminal.errorLines e.message)), ledger)
        | .ok report ledger =>
          let lines := printedReport around words report
          if !report.toDatum.numbers.all Numeral.fits then
            (.error (.defect .tooManyDigits), ledger)
          else if report.isError then (.ok (.failure lines), ledger)
          else (.ok (.success lines), ledger)

/-- Says whether an expression can be rolled.  Variables are looked at only when some are given. -/
def validateCommand (around : Surroundings) (words : Words) : Ending :=
  withOperand words fun expression =>
    let items := words.values "var"
    match tableOfOptions items with
    | .error _ => ending .usage
    | .ok given =>
      withSettings around fun settings =>
        let table := if items.isEmpty then none else some given
        let (outcome, events) := validate settings table expression
        let ledger : Ledger := { events := events.toArray }
        match outcome with
        | .ok () =>
          (.ok (.success (Terminal.messageLines ("Valid expression: " ++ expression))), ledger)
        | .error (.expr e) => (.ok (.failure (Terminal.errorLines e.message)), ledger)
        | .error (.defect d) => (.error (.defect d), ledger)

/-- Prints the names of the variables of an expression. -/
def varsCommand (words : Words) : Ending :=
  withOperand words fun expression =>
    match variablesOf expression with
    | [] => ending (.success (Terminal.messageLines "No variables referenced"))
    | names => ending (.success (names.flatMap fun name => Terminal.messageLines ("@" ++ name)))

/-- Prints lines for a subcommand without operands. -/
def showCommand (words : Words) (lines : List String) : Ending :=
  if words.operands.isEmpty then ending (.success lines) else ending .usage

/-- A subcommand: its name, its options, and what it does. -/
structure Subcommand where
  name : String
  options : List OptionSpec := []
  action : Surroundings → Words → Ending

/-- The subcommands. -/
def subcommands : List Subcommand := [
  { name := "roll", options := [variableOption, jsonOption, quietOption], action := rollCommand },
  { name := "validate", options := [variableOption], action := validateCommand },
  { name := "vars", action := fun _ words => varsCommand words },
  { name := "notation", action := fun around words =>
      showCommand words (Terminal.helpPanel around.width helpText) },
  { name := "examples", action := fun _ words =>
      showCommand words (Terminal.exampleLines exampleExpressions) }]

/-! ## Runs -/

/-- Whether all events are to be logged: the words say so, or the settings do. -/
def wantsDebug (around : Surroundings) (words : Words) : Except Failure Bool :=
  if words.has "debug" then .ok true
  else match around.settings with
    | .ok settings => .ok settings.debug
    | .error complaints => .error (.settings complaints)

/-- Runs a command line. -/
def runWords (around : Surroundings) (arguments : List String) : Run :=
  match readWords [debugOption] false arguments with
  | none => ⟨false, .ok .usage, {}⟩
  | some words =>
    match words.operands with
    | [] => ⟨false, .ok .usage, {}⟩
    | name :: rest =>
      match subcommands.find? (·.name == name) with
      | none => ⟨false, .ok .usage, {}⟩
      | some subcommand =>
        match wantsDebug around words with
        | .error failure => ⟨false, .error failure, {}⟩
        | .ok debug =>
          match readWords subcommand.options true rest with
          | none => ⟨debug, .ok .usage, {}⟩
          | some words =>
            let (exit, ledger) := subcommand.action around words
            ⟨debug, exit, ledger⟩

end CommandLine

end Tabletop
