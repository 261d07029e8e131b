/-
  The settings in use.

  Settings are asked for as such, or to evaluate an expression for which none were given.  Both get
  those that are kept, or have them read.  If they cannot be read, what is wrong with them is the
  answer, also to an evaluation: it is no fault of the expression, so no report is made.
-/
import Tabletop.Evaluation
import Tabletop.Settings.Cache

namespace Tabletop

/-- What the settings in use are asked for. -/
inductive Use where
  | get
  | evaluate (table : Bindings Int) (source : Source) (depth : Nat) (expression : String)

/-- What a use of settings comes to: the settings with their serial number, or how an evaluation
    ends. -/
inductive Outcome where
  | settings (serial : Nat) (settings : Settings)
  | evaluated (result : EStateM.Result Fault Ledger Report)

/-- What a use comes to with the given settings. -/
def Use.outcome (use : Use) (entry : Nat × Settings) : Outcome :=
  match use with
  | .get => .settings entry.1 entry.2
  | .evaluate table source depth expression =>
    .evaluated (Tabletop.evaluate entry.2 table source depth expression {})

/-- What is done between two uses to what settings are read from. -/
inductive Change where
  | set (name value : String)
  | unset (name : String)
  | write (lines : List String)

/-- What settings are read from behind a change. -/
def Change.apply (origin : Origin) : Change → Origin
  | set name value => { origin with environment := origin.environment.insert name value }
  | unset name => { origin with environment := origin.environment.erase name }
  | write lines => { origin with file := lines }

namespace Cache

variable {E : Type}

/-- What is answered to a use. -/
abbrev Answer (E : Type) := Except E Outcome

/-- Answers a use. -/
def answer (read : SettingsReader E) (use : Use) (cache : Cache) : Answer E × Cache :=
  let (found, cache) := cache.access read
  (found.map use.outcome, cache)

/-- What is done from one moment to the next. -/
inductive Step where
  | change (change : Change)
  | clear
  | use (use : Use)

/-- Takes a step; only uses are answered. -/
def step (read : SettingsReader E) (cache : Cache) : Step → Option (Answer E) × Cache
  | .change change => (none, { cache with origin := change.apply cache.origin })
  | .clear => (none, cache.clear)
  | .use use =>
    let (answer, cache) := cache.answer read use
    (some answer, cache)

/-- Takes step after step. -/
def run (read : SettingsReader E) (cache : Cache) : List Step → List (Option (Answer E)) × Cache
  | [] => ([], cache)
  | step :: steps =>
    let (answer, cache) := cache.step read step
    let (answers, cache) := cache.run read steps
    (answer :: answers, cache)

end Cache

end Tabletop
