/-
  **What becomes of an evaluation**, whatever the text, the variables and the settings are.

  From a source that always answers, an evaluation ends with a report, be it of a tally or of a
  failure, with one exception: where an integer that it has to write out is too long to be written,
  it ends with a defect.  These integers are the figures of the tally, or those in the message of a
  hazard; they come from literals of at most so many digits, but operators and variables make them
  as long as they like.
-/
import Mathlib
import Tabletop.Proofs.Evaluation.Stages
import Tabletop.Proofs.Rolling.Record

namespace Tabletop

open Rolling

/-- What an expression comes to under settings, after the given requests: its tally, or a fault. -/
def outcome (settings : Settings) (table : Bindings Int) (source : Source) (depth : Nat)
    (expression : String) (earlier : Array Nat) : Except Fault Tally :=
  match settings.exprOf expression with
  | .ok expr =>
    ended (expr.roll (settings.setup table source depth) depth { requests := earlier })
  | .error fault => .error fault

/-- The integers that are written out of what an expression comes to. -/
def written : Except Fault Tally → List Int
  | .ok tally => tally.figures
  | .error (.expr (.hazard hazard)) => hazard.numbers
  | .error _ => []

/-- The report tells what an expression came to: the value and the dice of a tally, or nothing but
    the message of a fault of the expression. -/
def Tells (report : Report) : Except Fault Tally → Prop
  | .ok tally => report.error = none ∧ report.total = tally.value ∧ report.rolls = tally.dice
  | .error (.expr e) =>
    report.error = some e.message ∧ report.total = 0 ∧ report.rolls = [] ∧ report.used = [] ∧
      report.breakdown = "Error: " ++ e.message
  | .error (.defect _) => False

/-- The report of a tally is there just when its figures can be written. -/
theorem ofTally_tells (expression : String) (tally : Tally) (used : Bindings Int) :
    (tally.figures.all Numeral.fits = true → ∃ report,
      Report.ofTally expression tally used = .ok report ∧ report.expression = expression ∧
        Tells report (.ok tally)) ∧
      (tally.figures.all Numeral.fits = false →
        Report.ofTally expression tally used = .error .tooManyDigits) := by
  refine ⟨fun hfits => ?_, fun hlong => ofTally_eq_error.mpr ⟨hlong, rfl⟩⟩
  exact ⟨_, ofTally_eq_ok.mpr ⟨hfits, rfl⟩, rfl, rfl, rfl, rfl⟩

/-- What is made of an outcome: a report that tells it, or a defect. -/
def Settled (expression : String) (came : Except Fault Tally)
    (result : EStateM.Result Fault Ledger Report) : Prop :=
  ((written came).all Numeral.fits = true → ∃ report after,
    result = .ok report after ∧ report.expression = expression ∧ Tells report came) ∧
  ((written came).all Numeral.fits = false →
    ∃ after, result = .error (.defect .tooManyDigits) after)

/-- A fault of the expression that nothing is wrong with but its message is a report. -/
theorem settled_failure (expression : String) (e : ExprError) (he : ∀ h, e ≠ .hazard h)
    (after : Ledger) :
    Settled expression (.error (.expr e)) (.ok (Report.failure expression e.message) after) := by
  have hnone : written (.error (.expr e)) = [] := by
    cases e with
    | hazard h => exact absurd rfl (he h)
    | _ => rfl
  refine ⟨fun _ => ⟨_, after, rfl, rfl, rfl, rfl, rfl, rfl, rfl⟩, fun h => ?_⟩
  rw [hnone] at h
  cases h

/-- What is made of a roll that met no defect. -/
theorem settled_reported (expression : String) {result : EStateM.Result Fault Ledger Tally}
    (hfault : ∀ fault, ended result = .error fault →
      (∃ hazard, fault = .expr (.hazard hazard)) ∨ ∃ name, fault = .expr (.undefined name))
    (roll : Rolling Report) (start : Ledger) (hroll : roll start = reported expression result) :
    Settled expression (ended result) (Rolling.orFailure expression roll start) := by
  rw [Rolling.orFailure, hroll]
  cases result with
  | ok tally after =>
    obtain ⟨hfits, hlong⟩ := ofTally_tells expression tally after.used
    refine ⟨fun h => ?_, fun h => ?_⟩
    · obtain ⟨report, hreport, hexpression, htells⟩ := hfits h
      rw [reported, hreport]
      exact ⟨report, after, rfl, hexpression, htells⟩
    · rw [reported, hlong h]
      exact ⟨after, rfl⟩
  | error fault after =>
    rcases hfault fault rfl with ⟨hazard, rfl⟩ | ⟨name, rfl⟩
    · refine ⟨fun h => ?_, fun h => ?_⟩
      · have hnumbers : hazard.numbers.all Numeral.fits = true := h
        rw [reported, Fault.seen, if_pos hnumbers]
        exact ⟨_, _, rfl, rfl, rfl, rfl, rfl, rfl, rfl⟩
      · have hnumbers : hazard.numbers.all Numeral.fits = false := h
        rw [reported, Fault.seen, hnumbers]
        exact ⟨after, rfl⟩
    · exact settled_failure expression (.undefined name) (fun h heq => by cases heq) _

/-- **What becomes of an evaluation** from a source that always answers.  If every integer that has
    to be written out can be written, there is a report, which tells what the expression came to;
    and if one of them is too long, there is none. -/
theorem evaluate_settled {source : Source} (hsource : ∀ earlier bound, source earlier bound ≠ none)
    (settings : Settings) (table : Bindings Int) (depth : Nat) (expression : String)
    (before : Ledger) :
    Settled expression (outcome settings table source depth expression before.requests)
      (evaluate settings table source depth expression before) := by
  rw [evaluate_stages, outcome]
  obtain ⟨hnames, hrefused⟩ := exprOf_sound settings expression
  cases hexpr : settings.exprOf expression with
  | error fault =>
    rcases hrefused fault hexpr with ⟨c, position, rfl⟩ | ⟨m, rfl⟩
    · exact settled_failure expression (.stray c position) (fun h heq => by cases heq) _
    · exact settled_failure expression (.misfit m) (fun h heq => by cases heq) _
  | ok expr =>
    have hanswers : ∀ earlier bound,
        (settings.setup table source depth).source earlier bound ≠ none := hsource
    generalize hsetup : settings.setup table source depth = setup at hanswers
    obtain rfl : setup.depth = depth := by rw [← hsetup]; rfl
    have htraced : Traced setup.limits InUpperCase _ (expr.roll · setup.depth) :=
      roll_traced (hnames expr hexpr) setup.depth
    -- The events of reading make no difference to what the roll comes to.
    generalize hstart : before.noting (settings.eventsOf expression) = start
    have hrequests : before.requests = start.requests := by rw [← hstart, requests_noting]
    have hended : ended (expr.roll setup setup.depth { requests := before.requests }) =
        ended (expr.roll setup setup.depth { start with used := [] }) := htraced.ended_eq hrequests
    show Settled expression (ended (expr.roll setup setup.depth { requests := before.requests })) _
    rw [hended]
    refine settled_reported expression (fun fault hfault => ?_) _ _ (evaluate_run _ _ _ _)
    exact htraced.fault_of_answering hanswers hfault

set_option maxRecDepth 1024 in
/-- A variable by itself comes to its value. -/
theorem outcome_variable (n : Int) (earlier : Array Nat) :
    outcome {} [("a", n)] (Source.always 1) 9 "@a" earlier = .ok { value := n } := by
  have hexpr : Settings.exprOf {} "@a" = .ok (.named "A") := by
    cbv
  have htable : Bindings.upperCased [("a", n)] = [("A", n)] := by
    cbv
  rw [outcome, hexpr]
  simp only [Expr.roll, Rolling.resolve, Settings.setup, htable]
  rfl

/-- There is a value that is too long to be written; with it a variable has no report. -/
theorem evaluate_settled_long :
    ∃ n : Int, Numeral.fits n = false ∧
      ∃ after, evaluate {} [("a", n)] (Source.always 1) 9 "@a" {} =
        .error (.defect .tooManyDigits) after := by
  have hanswers : ∀ earlier bound, Source.always 1 earlier bound ≠ none := fun _ _ => nofun
  obtain ⟨n, hn⟩ := Numeral.exists_not_fits
  refine ⟨n, hn, (evaluate_settled hanswers {} [("a", n)] 9 "@a" {}).2 ?_⟩
  rw [outcome_variable]
  show [n].all Numeral.fits = false
  rw [List.all_cons, hn, Bool.false_and]

end Tabletop
