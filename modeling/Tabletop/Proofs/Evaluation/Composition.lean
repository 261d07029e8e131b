/-
  **Composition**: what two texts came to one after the other, the texts joined by an operator come
  to.

  1. Joined texts are read as the operator on what each of them is read as (`exprOf_joined`).
  2. An operator on two expressions is rolled as they are, one after the other
     (`roll_binary_of_rolls`).
  3. What is said of the result follows from what was said of the sides; all that is new to be
     written out is one figure, the total or the number of successes.
-/
import Mathlib
import Tabletop.Proofs.Evaluation.Joined
import Tabletop.Proofs.Rolling.Recount
import Tabletop.Proofs.Rolling.Sequence

namespace Tabletop

open Grammar Rolling

/-- The successes of two reports together: none if neither counts any. -/
def Report.bothSuccesses (first second : Report) : Option Int :=
  if first.successes = none ∧ second.successes = none then none
  else some (first.successes.getD 0 + second.successes.getD 0)

/-- A report says of two texts joined by an operator what their reports say of each. -/
structure Composed (op : Operator) (first second report : Report) : Prop where
  sound : report.error = none
  total : op.result? first.total second.total = some report.total
  rolls : report.rolls = first.rolls ++ second.rolls
  successes : report.successes = Report.bothSuccesses first second
  pair : (report.hope, report.fear, report.tag) =
    if second.tag ≠ none then (second.hope, second.fear, second.tag)
    else (first.hope, first.fear, first.tag)
  used : report.used = first.used.union second.used

/-! ## Tallies put together -/

theorem bothSuccesses_report (l r : Tally) (first second : String) (us vs : Bindings Int) :
    Report.bothSuccesses (l.report first us) (r.report second vs) =
      Tally.addSuccesses l.successes r.successes := by
  rw [Report.bothSuccesses]
  show (if l.successes = none ∧ r.successes = none then none
    else some (l.successes.getD 0 + r.successes.getD 0)) = _
  cases l.successes <;> cases r.successes <;> simp [Tally.addSuccesses]

/-- The report of a tally put together composes the reports of its sides. -/
theorem composed_report {op : Operator} {l r : Tally} {value : Int}
    (h : op.apply l.value r.value = .ok value) (first second expression : String)
    (us vs : Bindings Int) :
    Composed op (l.report first us) (r.report second vs)
      ((l.combine value r).report expression (us.union vs)) where
  sound := rfl
  total := Operator.apply_eq_ok.mp h
  rolls := rfl
  successes := (bothSuccesses_report l r first second us vs).symm
  pair := by
    cases hpair : r.pair with
    | none => simp [Tally.report, Tally.combine, hpair]
    | some pair => simp [Tally.report, Tally.combine, hpair]
  used := rfl

/-- Of a tally put together only the figure is new to be written out. -/
theorem mem_figures_combine {l r : Tally} {value n : Int} (h : n ∈ (l.combine value r).figures) :
    n ∈ l.figures ∨ n ∈ r.figures ∨
      n = (Tally.addSuccesses l.successes r.successes).getD value := by
  have hverdict : ∀ v, r.verdict.or l.verdict = some v →
      r.verdict = some v ∨ l.verdict = some v := by
    intro v hv
    cases hr : r.verdict with
    | none => exact Or.inr (by simpa [hr] using hv)
    | some w => exact Or.inl (by simpa [hr] using hv)
  simp only [Tally.figures, Breakdown.numbers, Tally.combine, List.map_append,
    List.filterMap_append, List.mem_append, List.mem_singleton, Option.mem_toList,
    Option.map_eq_some_iff] at h ⊢
  grind

/-! ## Joined texts -/

/-- A hazard that writes out no integer becomes a failure with its message. -/
theorem orFailure_hazard {hazard : Hazard} (h : hazard.numbers = []) (expression : String)
    (before after : Ledger) :
    Rolling.orFailure expression
        (fun _ => reported expression (.error (.expr (.hazard hazard)) after)) before =
      .ok (Report.failure expression hazard.message)
        { after with events := after.events.push (.failed expression (.hazard hazard)) } := by
  have hseen : Fault.seen (.expr (.hazard hazard)) = .expr (.hazard hazard) := by
    rw [Fault.seen, h]
    rfl
  rw [reported, hseen]
  rfl

/-- A tally whose figures can be written becomes its report. -/
theorem orFailure_tally {tally : Tally} (h : tally.figures.all Numeral.fits = true)
    (expression : String) (before after : Ledger) :
    Rolling.orFailure expression (fun _ => reported expression (.ok tally after)) before =
      .ok (tally.report expression after.used) after := by
  have hreport := ofTally_eq_ok.mpr ⟨h, (rfl : tally.report expression after.used = _)⟩
  rw [reported, hreport]
  rfl

/-- A text that is read has the report of a roll from the same requests, if its figures can be
    written. -/
theorem evaluate_of_roll {settings : Settings} {table : Bindings Int} {source : Source}
    {depth : Nat} {expression : String} {expr : Expr} {before start after : Ledger} {tally : Tally}
    (hexpr : settings.exprOf expression = .ok expr)
    (hroll : expr.roll (settings.setup table source depth) depth start = .ok tally after)
    (hstart : start.used = []) (hsame : before.requests = start.requests)
    (hfits : tally.figures.all Numeral.fits = true) :
    ∃ after', evaluate settings table source depth expression before =
      .ok (tally.report expression after.used) after' ∧ after'.requests = after.requests := by
  obtain ⟨start', hstart', hrequests, hevaluate⟩ :=
    evaluate_of_exprOf hexpr table source depth before
  obtain ⟨after', pairs, hroll', hlast, -, hused, hused'⟩ :=
    roll_elsewhere hroll (hrequests.trans hsame)
  refine ⟨after', ?_, hlast⟩
  rw [hevaluate _ hroll', orFailure_tally hfits, hused', hstart', hused, hstart]

/-- **Composition.**  Let two texts without a target clause be evaluated one after the other, with
    room for one parenthesis less.  If the texts joined by an operator are not too long, then the
    operator on their totals is what the joined texts come to, from the same draws, and the report
    composes those of the two, if its figure can be written; and a division by a total of zero is
    the failure that says so. -/
theorem evaluate_composes {settings : Settings} (hdepth : 2 ≤ settings.maxDepth) {op : Operator}
    (hop : op ∈ arithmetic) {table : Bindings Int} {source : Source} {depth : Nat}
    {first second : String} {before mid last : Ledger} {r₁ r₂ : Report} (hfirst : Untargeted first)
    (hsecond : Untargeted second)
    (h₁ : evaluate { settings with maxDepth := settings.maxDepth - 1 } table source depth first
      before = .ok r₁ mid) (hok₁ : r₁.error = none)
    (h₂ : evaluate { settings with maxDepth := settings.maxDepth - 1 } table source depth second
      mid = .ok r₂ last) (hok₂ : r₂.error = none)
    (hroom : ∀ after, evaluate settings table source depth (joined first op second) before ≠
      .ok (Report.failure (joined first op second) Hazard.tooLong.message) after) :
    ∃ after, after.requests = last.requests ∧
      (∀ total, op.result? r₁.total r₂.total = some total →
        Numeral.fits ((Report.bothSuccesses r₁ r₂).getD total) = true →
          ∃ report, evaluate settings table source depth (joined first op second) before =
            .ok report after ∧ Composed op r₁ r₂ report) ∧
      (op = .div → r₂.total = 0 →
        evaluate settings table source depth (joined first op second) before =
          .ok (Report.failure (joined first op second) "Division by zero") after) := by
  obtain ⟨left, b, l, hleft, hb, hbefore, hl, hlfits, rfl⟩ := roll_of_evaluate h₁ hok₁
  obtain ⟨right, c, r, hright, hc, hmid, hr, hrfits, rfl⟩ := roll_of_evaluate h₂ hok₂
  have hexpr := exprOf_joined hdepth hop hfirst hsecond hleft hright
  obtain ⟨start, hstart, hrequests, hevaluate⟩ := evaluate_of_exprOf hexpr table source depth before
  rcases roll_binary_of_rolls hl hr hb hc hstart
      (hrequests.trans hbefore.symm) hmid with hlong | ⟨after, hlast, hused, hroll⟩
  · obtain ⟨after, hroll⟩ := hlong
    rw [hevaluate _ hroll, orFailure_hazard rfl] at hroom
    exact absurd rfl (hroom _)
  · rw [hevaluate _ hroll, combined]
    cases hvalue : op.apply l.value r.value with
    | error hazard =>
      refine ⟨{ after with events := after.events.push (.failed (joined first op second)
        (.hazard .divisionByZero)) }, hlast, fun total htotal => ?_, ?_⟩
      · rw [← Operator.apply_eq_ok] at htotal
        cases hvalue.symm.trans htotal
      · rintro rfl hzero
        have hdivision : Operator.div.apply l.value r.value = .error .divisionByZero :=
          if_pos hzero
        cases hvalue.symm.trans hdivision
        exact orFailure_hazard rfl _ _ _
    | ok value =>
      refine ⟨after, hlast, fun total htotal hfits => ?_, ?_⟩
      · cases hvalue.symm.trans (Operator.apply_eq_ok.mpr htotal)
        rw [bothSuccesses_report] at hfits
        -- All other figures were written in the reports of the sides.
        have hall : (l.combine value r).figures.all Numeral.fits = true := by
          rw [List.all_eq_true] at hlfits hrfits ⊢
          intro n hn
          rcases mem_figures_combine hn with hn | hn | rfl
          · exact hlfits n hn
          · exact hrfits n hn
          · exact hfits
        refine ⟨_, orFailure_tally hall _ _ _, ?_⟩
        rw [hused]
        exact composed_report hvalue _ _ _ _ _
      · rintro rfl hzero
        cases hvalue.symm.trans (if_pos hzero)

set_option maxRecDepth 1024 in
/-- A variable divided by the successes of a pool: the quotient of -3 by 2 goes to its floor. -/
theorem evaluate_composes_quotient :
    ∃ r₁ r₂ mid last,
      evaluate { maxDepth := 49 } [("x", -3)] (Source.cycle #[6, 4]) 9 "@x" {} = .ok r₁ mid ∧
      evaluate { maxDepth := 49 } [("x", -3)] (Source.cycle #[6, 4]) 9 "2d6>=4" mid = .ok r₂ last ∧
      ∃ report after, after.requests = last.requests ∧ report.total = -2 ∧
        evaluate {} [("x", -3)] (Source.cycle #[6, 4]) 9 (joined "@x" .div "2d6>=4") {} =
          .ok report after ∧ Composed .div r₁ r₂ report := by
  have hop : Operator.div ∈ arithmetic := by
    decide
  have hfirst : Untargeted "@x" := by
    have htokens : tokens (withoutAliases "@x").toList =
        [⟨.named, "@x", 0⟩, ⟨.finish, "", 2⟩] := by
      cbv
    simp [Untargeted, htokens]
  have hsecond : Untargeted "2d6>=4" := by
    have htokens : tokens (withoutAliases "2d6>=4").toList = [⟨.number, "2", 0⟩, ⟨.dice, "d", 1⟩,
        ⟨.number, "6", 2⟩, ⟨.comparison, ">=", 3⟩, ⟨.number, "4", 5⟩, ⟨.finish, "", 6⟩] := by
      cbv
    simp [Untargeted, htokens]
  -- The sides are read in the smaller room, and the whole as they are.
  have hleft : Settings.exprOf { maxDepth := 49 } "@x" = .ok (.named "X") := by
    cbv
  have hright : Settings.exprOf { maxDepth := 49 } "2d6>=4" =
      .ok (.dice (.number 2) (.faces (.number 6)) [.successCheck ⟨.ge, .number 4⟩]) := by
    cbv
  have hjoined : Settings.exprOf {} (joined "@x" .div "2d6>=4") = .ok (.binary .div _ _) :=
    exprOf_joined (by decide) hop hfirst hsecond hleft hright
  -- What the sides and the whole come to, the right side from where the left one ends.
  obtain ⟨r, hr⟩ : ∃ r : Tally, r =
      { value := 2
        dice := [{ sides := .faces 6, face := 6, success := true },
          { sides := .faces 6, face := 4, success := true }]
        successes := some 2 } := ⟨_, rfl⟩
  obtain ⟨mid, h₁, hmid⟩ : ∃ mid,
      evaluate { maxDepth := 49 } [("x", -3)] (Source.cycle #[6, 4]) 9 "@x" {} =
        .ok (Tally.report { value := -3 } "@x" [("X", -3)]) mid ∧ mid.requests = #[] := by
    have hroll : (Expr.named "X").roll
        (Settings.setup { maxDepth := 49 } [("x", -3)] (Source.cycle #[6, 4]) 9) 9 {} =
          .ok { value := -3 } { used := [("X", -3)] } := by
      cbv
    have hshort : ∀ n ∈ ({ value := -3 } : Tally).figures, n.natAbs < Nat.pow 10 1 := by decide
    exact evaluate_of_roll hleft hroll rfl rfl (figures_fit hshort (by decide))
  obtain ⟨last, h₂, -⟩ : ∃ last,
      evaluate { maxDepth := 49 } [("x", -3)] (Source.cycle #[6, 4]) 9 "2d6>=4" mid =
        .ok (r.report "2d6>=4" []) last ∧ last.requests = #[6, 6] := by
    have hroll : (Expr.dice (.number 2) (.faces (.number 6)) [.successCheck ⟨.ge, .number 4⟩]).roll
        (Settings.setup { maxDepth := 49 } [("x", -3)] (Source.cycle #[6, 4]) 9) 9
          {} = .ok r { requests := #[6, 6], events := #[.resolved 2 (.faces 6) 1 [6, 4] 2] } := by
      rw [hr]
      cbv
    have hfigures : r.figures = [6, 4, 6, 6, 2] := by rw [hr]; cbv
    have hshort : ∀ n ∈ r.figures, n.natAbs < Nat.pow 10 1 := by rw [hfigures]; decide
    exact evaluate_of_roll hright hroll rfl hmid (figures_fit hshort (by decide))
  have hroom : ∀ after, evaluate {} [("x", -3)] (Source.cycle #[6, 4]) 9
      (joined "@x" .div "2d6>=4") {} ≠
        .ok (Report.failure (joined "@x" .div "2d6>=4") Hazard.tooLong.message) after := by
    have hroll : (Expr.binary .div (.named "X") (.dice (.number 2) (.faces (.number 6))
        [.successCheck ⟨.ge, .number 4⟩])).roll
          (Settings.setup {} [("x", -3)] (Source.cycle #[6, 4]) 9) 9 {} =
        .ok (Tally.combine (-2) { value := -3 } r)
          { requests := #[6, 6], used := [("X", -3)]
            events := #[.resolved 2 (.faces 6) 1 [6, 4] 2] } := by
      rw [hr]
      cbv
    have hfigures : (Tally.combine (-2) { value := -3 } r).figures = [6, 4, 6, 6, 2] := by
      rw [hr]
      cbv
    have hshort : ∀ n ∈ (Tally.combine (-2) { value := -3 } r).figures,
        n.natAbs < Nat.pow 10 1 := by
      rw [hfigures]
      decide
    obtain ⟨whole, h₃, -⟩ : ∃ whole, evaluate {} [("x", -3)] (Source.cycle #[6, 4]) 9
        (joined "@x" .div "2d6>=4") {} = .ok (Tally.report _ _ [("X", -3)]) whole ∧ _ :=
      evaluate_of_roll hjoined hroll rfl rfl (figures_fit hshort (by decide))
    intro after hlong
    cases h₃.symm.trans hlong
  obtain ⟨after, hafter, hcomposed, -⟩ := @evaluate_composes {} (by decide) .div hop [("x", -3)] _
    9 "@x" "2d6>=4" {} mid last _ _ hfirst hsecond h₁ rfl h₂ rfl hroom
  have htotal : Operator.div.result? (-3) r.value = some (-2) :=
    Operator.apply_eq_ok.mp (by rw [hr]; rfl)
  have hfits : Numeral.fits ((Report.bothSuccesses (Tally.report { value := -3 } "@x" [("X", -3)])
      (r.report "2d6>=4" [])).getD (-2)) = true := by
    have hshort : Int.natAbs 2 < Nat.pow 10 1 := by decide
    rw [bothSuccesses_report, hr]
    exact Numeral.fits_of_lt hshort (by decide)
  obtain ⟨report, hreport, hsame⟩ := hcomposed (-2) htotal hfits
  have hvalue : report.total = -2 := Option.some.inj (hsame.total.symm.trans htotal)
  exact ⟨_, _, mid, last, h₁, h₂, report, after, hafter, hvalue, hreport, hsame⟩

end Tabletop
