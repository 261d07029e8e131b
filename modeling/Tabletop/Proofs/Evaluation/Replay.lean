/-
  **Replay**: a report holds all that its evaluation learnt from outside.

  Evaluate an expression, and then evaluate it again under the same settings with the variables that
  the report lists and a source that gives back the faces of its dice: the report is the same.  For
  the second run gets the answers that the first one got, step for step.  The dice of the report are
  the draws in order, and each variable that was looked up is listed with its value; since the names
  in an expression are in upper case, the list is read as it was written.
-/
import Mathlib
import Tabletop.Proofs.Evaluation.Stages
import Tabletop.Proofs.Rolling.Record

namespace Tabletop

open Rolling

/-- The source that gives back the draws of dice, one after the other, whatever the bound. -/
def Source.replaying (rolls : List Die) : Source := fun earlier _ =>
  rolls[earlier.size]?.map fun die => die.sides.drawOf die.face

/-- Given back from where some were given back already, dice answer for those that follow. -/
theorem answered_replaying {rolls : List Die} (rest : List Die) :
    ∀ (before : List Die) (earlier : Array Nat), rolls = before ++ rest →
      earlier.size = before.length → Answered (Source.replaying rolls) earlier (shown rest) := by
  induction rest with
  | nil => exact fun _ _ _ _ => trivial
  | cons die rest ih =>
    intro before earlier hrolls hsize
    refine ⟨?_, ih (before ++ [die]) _ ?_ ?_⟩
    · have hdie : rolls[earlier.size]? = some die := by
        rw [hrolls, hsize, List.getElem?_append_right (Nat.le_refl _), Nat.sub_self]
        rfl
      show rolls[earlier.size]?.map _ = _
      rw [hdie]
      rfl
    · rw [hrolls, List.append_assoc, List.singleton_append]
    · rw [Array.size_push, hsize, List.length_append, List.length_singleton]

/-- The roll of a tally is the same wherever the dice of the tally are given back and the variables
    looked up have the values noted. -/
theorem roll_replays {expr : Expr} {setup : Setup} {tally : Tally} {before after : Ledger}
    (hroll : expr.roll setup setup.depth before = .ok tally after) (hbefore : before.used = [])
    (hnames : NamedAll InUpperCase expr) (other : Setup) (hlimits : other.limits = setup.limits)
    (hdepth : other.depth = setup.depth) (hsource : other.source = Source.replaying tally.dice)
    (htable : other.table = after.used.upperCased) (start : Ledger)
    (hrequests : start.requests = #[]) (hstart : start.used = []) :
    ∃ after', expr.roll other other.depth start = .ok tally after' ∧
      after'.used = after.used ∧ after'.requests.size = tally.dice.length := by
  obtain ⟨steps, hgiven, hsound, hshown, rfl, hagain⟩ :=
    (roll_traced hnames setup.depth).of_eq_ok hroll
  have hused : ∀ ledger : Ledger, ledger.used = [] →
      (Rolling.after ledger steps).used = Bindings.bindAll [] (lookups steps) := by
    intro ledger hledger
    rw [used_after, hledger]
  have hagain' : Rolling.Given other start steps := by
    rw [given_iff] at hgiven ⊢
    rw [hsource, htable, hused before hbefore, ← hshown, hrequests]
    refine ⟨answered_replaying tally.dice [] #[] rfl rfl, fun entry hentry => ?_⟩
    exact Bindings.get?_upperCased_of_agree hgiven.2 (of_mem_lookups hsound) hentry
  rw [hdepth]
  refine ⟨_, hagain other start hlimits hagain', ?_, ?_⟩
  · rw [hused before hbefore, hused start hstart]
  · rw [requests_after, ← hshown, hrequests]
    simp [shown]

/-- **Replay.**  The report of an evaluation that went well is the report of evaluating the same
    expression under the same settings with the variables that it lists and the faces of its dice,
    and that takes as many draws as it lists dice. -/
theorem evaluate_replays {settings : Settings} {table : Bindings Int} {source : Source}
    {depth : Nat} {expression : String} {before after : Ledger} {report : Report}
    (h : evaluate settings table source depth expression before = .ok report after)
    (hok : report.error = none) :
    ∃ after', evaluate settings report.used (Source.replaying report.rolls) depth expression {} =
        .ok report after' ∧ after'.requests.size = report.rolls.length := by
  rw [evaluate_stages, orFailure_eq_ok hok] at h
  cases hexpr : settings.exprOf expression with
  | error fault =>
    rw [hexpr] at h
    cases h
  | ok expr =>
    rw [hexpr] at h
    obtain ⟨tally, hroll, hreport⟩ := evaluate_eq_ok.mp h
    obtain ⟨hrolls, hused, -⟩ := of_ofTally_eq_ok hreport
    have hnames := (exprOf_sound settings expression).1 expr hexpr
    -- Reading notes the same events again; the roll starts behind them without any request.
    obtain ⟨after', hroll', hused', hsize⟩ := roll_replays hroll rfl hnames
      (settings.setup report.used (Source.replaying report.rolls) depth) rfl rfl
      (by rw [hrolls]; rfl) (by rw [hused]; rfl)
      { Ledger.noting {} (settings.eventsOf expression) with used := [] } rfl rfl
    refine ⟨after', ?_, by rw [hsize, hrolls]⟩
    rw [evaluate_stages, orFailure_eq_ok hok, hexpr]
    exact evaluate_eq_ok.mpr ⟨tally, hroll', by rw [hused']; exact hreport⟩

set_option maxRecDepth 1024 in
/-- A chain of explosions of a die whose size is a variable, written in another letter case. -/
theorem evaluate_replays_explosion :
    ∃ report after,
      evaluate {} [("x", 6)] (Source.cycle #[6, 6, 3]) 9 "d@X!" {} = .ok report after ∧
      report.error = none ∧
        ∃ after', evaluate {} report.used (Source.replaying report.rolls) 9 "d@X!" {} =
          .ok report after' ∧ after'.requests.size = report.rolls.length := by
  have hexpr : Settings.exprOf {} "d@X!" =
      .ok (.dice (.number 1) (.faces (.named "X")) [.explosion ⟨.ge, none, none⟩]) := by
    cbv
  have hevents : Settings.eventsOf {} "d@X!" = [] := by
    cbv
  obtain ⟨tally, after, hroll, hfigures⟩ : ∃ tally after,
      (Expr.dice (.number 1) (.faces (.named "X")) [.explosion ⟨.ge, none, none⟩]).roll
        (Settings.setup {} [("x", 6)] (Source.cycle #[6, 6, 3]) 9) 9 {} = .ok tally after ∧
          tally.figures = [6, 6, 3, 6, 6, 6, 15] :=
    ⟨{ value := 15
       dice := [{ sides := .faces 6, face := 6, exploded := true },
         { sides := .faces 6, face := 6, exploded := true }, { sides := .faces 6, face := 3 }] },
      { requests := #[6, 6, 6]
        used := [("X", 6)]
        events := #[.resolved 1 (.faces 6) 1 [6, 6, 3] 15] }, by cbv, rfl⟩
  have hshort : ∀ n ∈ tally.figures, n.natAbs < Nat.pow 10 2 := by
    rw [hfigures]
    decide
  obtain ⟨report, hreport⟩ := exists_report hshort (by decide) "d@X!" after.used
  have hok := (of_ofTally_eq_ok hreport).2.2.2
  have h : evaluate {} [("x", 6)] (Source.cycle #[6, 6, 3]) 9 "d@X!" {} = .ok report after := by
    rw [evaluate_stages, orFailure_eq_ok hok, hexpr, hevents]
    exact evaluate_eq_ok.mpr ⟨tally, hroll, hreport⟩
  exact ⟨report, after, h, hok, evaluate_replays h hok⟩

end Tabletop
