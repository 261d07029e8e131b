/-
  The stages of an evaluation, taken apart.

  1. **Reading** looks at the text alone.  Whatever it comes to, the roll starts at a ledger with
     the requests from before and a few events more.
  2. **Rolling** starts with no variable looked up.  What it comes to is written out, if that can
     be done: a tally as a report, a fault as its message.
-/
import Tabletop.Evaluation
import Tabletop.Proofs.Names
import Tabletop.Proofs.Numeral
import Tabletop.Proofs.Reading.Exact

namespace Tabletop

/-! ## Reading -/

/-- A ledger with events noted. -/
def Ledger.noting (ledger : Ledger) (events : List Event) : Ledger :=
  { ledger with events := ledger.events ++ events.toArray }

theorem requests_noting (ledger : Ledger) (events : List Event) :
    (ledger.noting events).requests = ledger.requests := rfl

theorem noting_cons (ledger : Ledger) (event : Event) (events : List Event) :
    (ledger.noting [event]).noting events = ledger.noting ([event] ++ events) := by
  simp [Ledger.noting]

namespace Settings

/-- The expression that a text stands for under settings, its aliases expanded, or a fault. -/
def exprOf (settings : Settings) (expression : String) : Except Fault Expr :=
  (Expr.ofText settings.strict settings.maxDepth (withoutAliases expression)).1

/-- What is noted while a text is read: that it had aliases, and what reading notes. -/
def eventsOf (settings : Settings) (expression : String) : List Event :=
  (if withoutAliases expression ≠ Text.lowered (Text.trimmed expression) then
    [.expanded expression (withoutAliases expression)] else []) ++
  (Expr.ofText settings.strict settings.maxDepth (withoutAliases expression)).2

end Settings

/-- What a text is read as has all its parts, and its names are in upper case; and if it is not
    read, that is because of a stray character or of a token. -/
theorem ofText_sound (strict : Bool) (maxDepth : Int) (text : String) :
    (∀ expr, (Expr.ofText strict maxDepth text).1 = .ok expr → NamedAll InUpperCase expr) ∧
      ∀ fault, (Expr.ofText strict maxDepth text).1 = .error fault →
        (∃ c position, fault = .expr (.stray c position)) ∨ ∃ m, fault = .expr (.misfit m) := by
  rw [Expr.ofText]
  cases hread : readTokens strict text with
  | error e =>
    refine ⟨nofun, ?_⟩
    rintro _ ⟨⟩
    obtain ⟨c, position, rfl⟩ := stray_of_readTokens hread
    exact Or.inl ⟨c, position, rfl⟩
  | ok ts =>
    obtain rfl := eq_tokens_of_readTokens hread
    obtain ⟨hsound, hrefused⟩ := ofTokens_sound maxDepth text.toList
    refine ⟨fun expr h => ?_, fun fault h => ?_⟩
    · have hwf : ∀ t ∈ cutTokens text.toList, t.WellFormed :=
        fun t ht => wellFormed_of_mem_cutTokens ht
      exact namedAll_of_sentence (hsound expr h).sentence (namesPass_of_wellFormed hwf)
    · obtain ⟨cause, t, -, rfl⟩ := hrefused fault h
      exact Or.inr ⟨_, rfl⟩

/-- A text is read as an expression just when its tokens derive it, and if reading is strict no
    character of the text is stray. -/
theorem ofText_eq_ok {strict : Bool} {maxDepth : Int} {text : String} {expr : Expr} :
    (Expr.ofText strict maxDepth text).1 = .ok expr ↔
      (strict = true → strays text.toList = []) ∧
        DerivesWithin maxDepth (cutTokens text.toList) expr := by
  have hderives : (Expr.ofTokens maxDepth (tokens text.toList)).1 = .ok expr ↔
      DerivesWithin maxDepth (cutTokens text.toList) expr :=
    ⟨(ofTokens_sound maxDepth _).1 expr, ofTokens_complete⟩
  rw [Expr.ofText, ← hderives, readTokens.eq_def]
  cases strict with
  | false => simp
  | true =>
    cases strays text.toList with
    | nil => simp
    | cons stray strays => simp

theorem exprOf_sound (settings : Settings) (expression : String) :
    (∀ expr, settings.exprOf expression = .ok expr → NamedAll InUpperCase expr) ∧
      ∀ fault, settings.exprOf expression = .error fault →
        (∃ c position, fault = .expr (.stray c position)) ∨ ∃ m, fault = .expr (.misfit m) :=
  ofText_sound settings.strict settings.maxDepth (withoutAliases expression)

theorem exprOf_eq_ok {settings : Settings} {expression : String} {expr : Expr} :
    settings.exprOf expression = .ok expr ↔
      (settings.strict = true → strays (withoutAliases expression).toList = []) ∧
        DerivesWithin settings.maxDepth (cutTokens (withoutAliases expression).toList) expr :=
  ofText_eq_ok

theorem read_run (settings : Settings) (expression : String) (ledger : Ledger) :
    Rolling.read settings.strict settings.maxDepth (withoutAliases expression) ledger =
      (match settings.exprOf expression with
        | .ok expr => .ok expr (ledger.noting
            (Expr.ofText settings.strict settings.maxDepth (withoutAliases expression)).2)
        | .error fault => .error fault (ledger.noting
            (Expr.ofText settings.strict settings.maxDepth (withoutAliases expression)).2)) :=
  rfl

/-- What is made of an expression that was read, or of a fault. -/
def evaluateRead (setup : Setup) (expression : String) : Except Fault Expr → Rolling Report
  | .ok expr => expr.evaluate setup expression
  | .error fault => throw fault

/-- Of two rolls that come to the same the same is made. -/
theorem orFailure_congr (expression : String) {roll roll' : Rolling Report} {l l' : Ledger}
    (h : roll l = roll' l') :
    Rolling.orFailure expression roll l = Rolling.orFailure expression roll' l' := by
  rw [Rolling.orFailure, h, Rolling.orFailure]

/-- A report that tells of no failure is that of the roll. -/
theorem orFailure_eq_ok {expression : String} {roll : Rolling Report} {l l' : Ledger}
    {report : Report} (hok : report.error = none) :
    Rolling.orFailure expression roll l = .ok report l' ↔ roll l = .ok report l' := by
  unfold Rolling.orFailure
  cases roll l with
  | ok r l'' => exact Iff.rfl
  | error fault l'' =>
    cases fault with
    | defect d => exact Iff.rfl
    | expr e =>
      refine ⟨?_, nofun⟩
      rintro ⟨⟩
      cases hok

/-- An evaluation is what is made of what was read, from where it was read. -/
theorem evaluate_stages (settings : Settings) (table : Bindings Int) (source : Source)
    (depth : Nat) (expression : String) (before : Ledger) :
    evaluate settings table source depth expression before =
      Rolling.orFailure expression
        (evaluateRead (settings.setup table source depth) expression (settings.exprOf expression))
        (before.noting (settings.eventsOf expression)) := by
  -- From whichever ledger reading starts.
  have hread : ∀ ledger : Ledger,
      (Rolling.read settings.strict settings.maxDepth (withoutAliases expression) >>= fun expr =>
        expr.evaluate (settings.setup table source depth) expression : Rolling Report) ledger =
      evaluateRead (settings.setup table source depth) expression (settings.exprOf expression)
        (ledger.noting
          (Expr.ofText settings.strict settings.maxDepth (withoutAliases expression)).2) := by
    intro ledger
    have hrun := read_run settings expression ledger
    cases hexpr : settings.exprOf expression with
    | ok expr =>
      rw [hexpr] at hrun
      exact Run.bind_of_ok hrun
    | error fault =>
      rw [hexpr] at hrun
      exact Run.bind_of_error hrun
  show Rolling.orFailure expression
    (if withoutAliases expression ≠ Text.lowered (Text.trimmed expression) then
      Rolling.note (.expanded expression (withoutAliases expression)) >>= fun _ =>
        Rolling.read settings.strict settings.maxDepth (withoutAliases expression) >>= fun expr =>
          expr.evaluate (settings.setup table source depth) expression
    else Rolling.read settings.strict settings.maxDepth (withoutAliases expression) >>= fun expr =>
      expr.evaluate (settings.setup table source depth) expression) before = _
  refine orFailure_congr expression ?_
  by_cases hne : withoutAliases expression ≠ Text.lowered (Text.trimmed expression)
  · rw [if_pos hne, Settings.eventsOf, if_pos hne, ← noting_cons]
    exact hread _
  · rw [if_neg hne, Settings.eventsOf, if_neg hne]
    exact hread before

/-! ## From a roll to a report -/

/-- The fault that is seen of a fault: a hazard whose message cannot be written is a defect. -/
def Fault.seen : Fault → Fault
  | .expr (.hazard hazard) =>
    if hazard.numbers.all Numeral.fits then .expr (.hazard hazard) else .defect .tooManyDigits
  | fault => fault

theorem withMessage_run (roll : Rolling Tally) (ledger : Ledger) :
    roll.withMessage ledger = (match roll ledger with
      | .ok tally ledger => .ok tally ledger
      | .error fault ledger => .error fault.seen ledger) := by
  unfold Rolling.withMessage
  cases roll ledger with
  | ok tally ledger => rfl
  | error fault ledger =>
    cases fault with
    | defect d => rfl
    | expr e =>
      cases e with
      | hazard h =>
        show (if _ then _ else _) = EStateM.Result.error (if _ then _ else _) ledger
        split <;> rfl
      | _ => rfl

/-- What is made of a roll: its report, or a fault. -/
def reported (expression : String) :
    EStateM.Result Fault Ledger Tally → EStateM.Result Fault Ledger Report
  | .ok tally ledger =>
    match Report.ofTally expression tally ledger.used with
    | .ok report => .ok report ledger
    | .error defect => .error (.defect defect) ledger
  | .error fault ledger => .error fault.seen ledger

/-- An expression that was read is rolled with no variable looked up. -/
theorem evaluate_run (expr : Expr) (setup : Setup) (expression : String) (ledger : Ledger) :
    expr.evaluate setup expression ledger =
      reported expression (expr.roll setup setup.depth { ledger with used := [] }) := by
  show ((expr.roll setup setup.depth).withMessage >>= fun tally => get >>= fun after =>
    match Report.ofTally expression tally after.used with
    | .ok report => pure report
    | .error defect => throw (.defect defect) : Rolling Report) { ledger with used := [] } = _
  have hmessage := withMessage_run (expr.roll setup setup.depth) { ledger with used := [] }
  cases hroll : expr.roll setup setup.depth { ledger with used := [] } with
  | error fault ledger' =>
    rw [hroll] at hmessage
    exact Run.bind_of_error hmessage
  | ok tally ledger' =>
    rw [hroll] at hmessage
    rw [Run.bind_of_ok hmessage, reported]
    show (match Report.ofTally expression tally ledger'.used with
      | .ok report => pure report
      | .error defect => throw (.defect defect) : Rolling Report) ledger' = _
    cases Report.ofTally expression tally ledger'.used <;> rfl

/-- Where an evaluation gives a report, the roll came to a tally. -/
theorem evaluate_eq_ok {expr : Expr} {setup : Setup} {expression : String} {before after : Ledger}
    {report : Report} : expr.evaluate setup expression before = .ok report after ↔
      ∃ tally, expr.roll setup setup.depth { before with used := [] } = .ok tally after ∧
        Report.ofTally expression tally after.used = .ok report := by
  rw [evaluate_run]
  cases expr.roll setup setup.depth { before with used := [] } with
  | error fault ledger => simp [reported]
  | ok tally ledger =>
    rw [reported]
    cases hreport : Report.ofTally expression tally ledger.used with
    | error d =>
      refine ⟨nofun, ?_⟩
      rintro ⟨_, ⟨⟩, h⟩
      rw [hreport] at h
      cases h
    | ok r =>
      constructor
      · rintro ⟨⟩
        exact ⟨tally, rfl, hreport⟩
      · rintro ⟨_, ⟨⟩, h⟩
        rw [hreport] at h
        cases h
        rfl

/-- The figures that a report of a tally writes out. -/
def Tally.figures (tally : Tally) : List Int :=
  Breakdown.numbers tally.dice tally.value tally.successes tally.verdict

/-- What a report of a tally says. -/
def Tally.report (tally : Tally) (expression : String) (used : Bindings Int) : Report where
  expression
  total := tally.value
  breakdown := Breakdown.text tally.dice tally.value tally.successes (tally.pair.map (·.tag))
    tally.verdict
  rolls := tally.dice
  successes := tally.successes
  verdict := tally.verdict
  hope := tally.pair.map (·.hope)
  fear := tally.pair.map (·.fear)
  tag := tally.pair.map (·.tag)
  used

/-- A tally has one report, which is there just when its figures can be written. -/
theorem ofTally_eq_ok {expression : String} {tally : Tally} {used : Bindings Int}
    {report : Report} : Report.ofTally expression tally used = .ok report ↔
      tally.figures.all Numeral.fits = true ∧ tally.report expression used = report := by
  show (if tally.figures.all Numeral.fits = true then
    Except.ok (tally.report expression used) else .error Defect.tooManyDigits) = .ok report ↔ _
  split
  · next hfits => simp [hfits]
  · next hlong => simp [hlong]

/-- Where it is not there, that is because of its figures. -/
theorem ofTally_eq_error {expression : String} {tally : Tally} {used : Bindings Int}
    {defect : Defect} : Report.ofTally expression tally used = .error defect ↔
      tally.figures.all Numeral.fits = false ∧ defect = .tooManyDigits := by
  show (if tally.figures.all Numeral.fits = true then
    Except.ok (tally.report expression used) else .error Defect.tooManyDigits) = .error defect ↔ _
  split
  · next hfits => simp [hfits]
  · next hlong => simp [hlong, eq_comm]

/-- A report of a tally tells the dice and the variables as they are. -/
theorem of_ofTally_eq_ok {expression : String} {tally : Tally} {used : Bindings Int}
    {report : Report} (h : Report.ofTally expression tally used = .ok report) :
    report.rolls = tally.dice ∧ report.used = used ∧ report.expression = expression ∧
      report.error = none := by
  obtain ⟨-, rfl⟩ := ofTally_eq_ok.mp h
  exact ⟨rfl, rfl, rfl, rfl⟩

/-- Short figures can be written. -/
theorem figures_fit {tally : Tally} {digits : Nat}
    (h : ∀ n ∈ tally.figures, n.natAbs < Nat.pow 10 digits)
    (hdigits : digits ≤ Numeral.digitLimit) : tally.figures.all Numeral.fits = true :=
  List.all_eq_true.mpr fun n hn => Numeral.fits_of_lt (h n hn) hdigits

/-- The faces, the number that they came to and the threshold of a verdict are among the figures. -/
theorem fits_of_figures {tally : Tally} (h : tally.figures.all Numeral.fits = true) :
    (∀ die ∈ tally.dice, Numeral.fits die.face = true) ∧
      Numeral.fits (tally.successes.getD tally.value) = true ∧
        ∀ v ∈ tally.verdict, Numeral.fits v.threshold = true := by
  simp only [Tally.figures, Breakdown.numbers, List.all_append, Bool.and_eq_true] at h
  obtain ⟨⟨⟨hfaces, -⟩, hfigure⟩, hthreshold⟩ := h
  refine ⟨by simpa using hfaces, by simpa using hfigure, fun v hv => ?_⟩
  rw [Option.mem_def] at hv
  simpa [hv] using hthreshold

/-- A tally with short figures has a report. -/
theorem exists_report {tally : Tally} {digits : Nat}
    (h : ∀ n ∈ tally.figures, n.natAbs < Nat.pow 10 digits) (hdigits : digits ≤ Numeral.digitLimit)
    (expression : String) (used : Bindings Int) :
    ∃ report, Report.ofTally expression tally used = .ok report :=
  ⟨_, ofTally_eq_ok.mpr ⟨figures_fit h hdigits, rfl⟩⟩

/-! ## From a text to a report -/

/-- What becomes of a text that is read as an expression hangs on what its roll comes to, which
    starts after the requests from before with no variable looked up. -/
theorem evaluate_of_exprOf {settings : Settings} {expression : String} {expr : Expr}
    (hexpr : settings.exprOf expression = .ok expr) (table : Bindings Int) (source : Source)
    (depth : Nat) (before : Ledger) :
    ∃ start : Ledger, start.used = [] ∧ start.requests = before.requests ∧
      ∀ result, expr.roll (settings.setup table source depth) depth start = result →
        evaluate settings table source depth expression before =
          Rolling.orFailure expression (fun _ => reported expression result) before := by
  have hrequests := requests_noting before (settings.eventsOf expression)
  rw [evaluate_stages, hexpr]
  generalize before.noting (settings.eventsOf expression) = noted at hrequests ⊢
  refine ⟨{ noted with used := [] }, rfl, hrequests, ?_⟩
  rintro _ rfl
  exact orFailure_congr _ (evaluate_run _ _ _ _)

/-- Where the evaluation of a text went well, its roll came to a tally, which the report tells. -/
theorem roll_of_evaluate {settings : Settings} {table : Bindings Int} {source : Source}
    {depth : Nat} {expression : String} {before after : Ledger} {report : Report}
    (h : evaluate settings table source depth expression before = .ok report after)
    (hok : report.error = none) :
    ∃ expr start tally, settings.exprOf expression = .ok expr ∧ start.used = [] ∧
      start.requests = before.requests ∧
      expr.roll (settings.setup table source depth) depth start = .ok tally after ∧
      tally.figures.all Numeral.fits = true ∧ tally.report expression after.used = report := by
  cases hexpr : settings.exprOf expression with
  | error fault =>
    rw [evaluate_stages, hexpr, orFailure_eq_ok hok] at h
    cases h
  | ok expr =>
    obtain ⟨start, hused, hrequests, hevaluate⟩ :=
      evaluate_of_exprOf hexpr table source depth before
    cases hroll : expr.roll (settings.setup table source depth) depth start with
    | error fault ledger =>
      rw [hevaluate _ hroll] at h
      cases (orFailure_eq_ok hok).mp h
    | ok tally ledger =>
      rw [hevaluate _ hroll] at h
      have hreported := (orFailure_eq_ok hok).mp h
      rw [reported] at hreported
      cases hreport : Report.ofTally expression tally ledger.used with
      | error defect =>
        rw [hreport] at hreported
        cases hreported
      | ok made =>
        rw [hreport] at hreported
        cases hreported
        obtain ⟨hfits, hsame⟩ := ofTally_eq_ok.mp hreport
        exact ⟨expr, start, tally, rfl, hused, hrequests, hroll, hfits, hsame⟩

end Tabletop
