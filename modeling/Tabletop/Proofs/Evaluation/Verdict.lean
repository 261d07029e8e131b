/-
  **Printed verdicts**: what a breakdown says of a target check.

  The check holds the total against its threshold, and the breakdown shows the number of successes
  in place of the total where successes are counted.  So the verdict is on the number shown if
  nothing is counted, or if everything added up is a count; else it can be on another number.
-/
import Mathlib
import Tabletop.Proofs.Breakdown.Verdict
import Tabletop.Proofs.Evaluation.Breakdown
import Tabletop.Proofs.Evaluation.Composition
import Tabletop.Proofs.Rolling.Sums

namespace Tabletop

open Breakdown Rolling

/-- A target check rolls what it checks and holds the value against its threshold. -/
theorem of_roll_target {setup : Setup} {inner : Expr} {comparison : Comparison}
    {threshold : Operand} {room : Nat} {before after : Ledger} {tally : Tally}
    (h : (Expr.target inner comparison threshold).roll setup room before = .ok tally after) :
    ∃ less made mid n, inner.roll setup less before = .ok made mid ∧
      threshold.value? setup.table = some n ∧ tally = made.check comparison n := by
  cases room with
  | zero => cases h
  | succ less =>
    obtain ⟨made, mid, hmade, hrest⟩ := Run.bind_eq_ok.mp h
    obtain ⟨n, last, hn, hcheck⟩ := Run.bind_eq_ok.mp hrest
    cases hcheck
    exact ⟨less, made, mid, n, hmade, (resolve_ensures (named_any threshold)).value hn, rfl⟩

/-- **Printed verdicts.**  Let a text with a target clause be evaluated.  The verdict that its
    breakdown prints is the outcome of comparing the total with the printed threshold, as the
    printed comparison says.  The number that is printed is the number of successes where successes
    are counted, else the total; and it is the total if nothing is counted, or if what is checked is
    a sum of dice that all count. -/
theorem evaluate_prints_verdict {settings : Settings} {table : Bindings Int} {source : Source}
    {depth : Nat} {expression : String} {before after : Ledger} {report : Report}
    (h : evaluate settings table source depth expression before = .ok report after)
    (hok : report.error = none) {inner : Expr} {comparison : Comparison} {threshold : Operand}
    (hclause : settings.exprOf expression = .ok (.target inner comparison threshold)) :
    ∃ printed n passed, threshold.value? table.upperCased = some n ∧
      printed? report.breakdown = some (printed, ⟨comparison, n, passed⟩) ∧
      report.verdict = some ⟨comparison, n, passed⟩ ∧
      passed = comparison.holds report.total n ∧
      printed = report.successes.getD report.total ∧
      (report.successes = none ∨ inner.SumOf (·.checks ≠ []) → printed = report.total) := by
  obtain ⟨expr, start, tally, hexpr, -, -, hroll, hfits, rfl⟩ := roll_of_evaluate h hok
  cases hclause.symm.trans hexpr
  have hlaid := laid_of_roll hroll
  obtain ⟨-, hfigure, hthreshold⟩ := fits_of_figures hfits
  obtain ⟨less, made, mid, n, hmade, hn, rfl⟩ := of_roll_target hroll
  have hword : ∀ t ∈ ["Critical", "Hope", "Fear"], t ≠ "" ∧ ' ' ∉ t.toList := by decide
  have hprinted := printed?_text (fun key hkey => (not_mem_kinds hlaid key hkey).2) hfigure
    (fun t ht => hword t ((made.check comparison n).tag_mem t ht)) (hthreshold _ rfl)
  refine ⟨_, n, _, hn, hprinted, rfl, rfl, rfl, ?_⟩
  rintro (hnone | hsum)
  · show made.successes.getD made.value = made.value
    have hmade : made.successes = none := hnone
    rw [hmade, Option.getD_none]
  · obtain ⟨blocks, -, hrecounts⟩ := recounted_of_roll hmade
    show made.successes.getD made.value = made.value
    rw [hrecounts.successes_of_checks hsum, Option.getD_some]

set_option maxRecDepth 1024 in
/-- Two terms that count, with a variable on the other side of a check and of the clause: 4 and 6
    are successes, and 2 of them are fewer than 3. -/
theorem evaluate_prints_verdict_counts :
    ∃ report after inner,
      evaluate {} [("n", 5), ("goal", 3)] (Source.cycle #[4, 2, 6]) 9 "2d6>=4+1d6>=@n t<@goal" {} =
        .ok report after ∧
      report.error = none ∧
      Settings.exprOf {} "2d6>=4+1d6>=@n t<@goal" = .ok (.target inner .lt (.named "GOAL")) ∧
      inner.SumOf (·.checks ≠ []) ∧
      report.breakdown = "3d6 (4✓, 2, 6✓) = 2 successes vs <3 → PASS" ∧
      ∃ printed n passed,
        (Operand.named "GOAL").value? (Bindings.upperCased [("n", 5), ("goal", 3)]) = some n ∧
        printed? report.breakdown = some (printed, ⟨.lt, n, passed⟩) ∧
        report.verdict = some ⟨.lt, n, passed⟩ ∧
        passed = Comparison.lt.holds report.total n ∧
        printed = report.successes.getD report.total ∧
        (report.successes = none ∨ inner.SumOf (·.checks ≠ []) → printed = report.total) := by
  have hexpr : Settings.exprOf {} "2d6>=4+1d6>=@n t<@goal" = .ok (.target (.binary .add
      (.dice (.number 2) (.faces (.number 6)) [.successCheck ⟨.ge, .number 4⟩])
      (.dice (.number 1) (.faces (.number 6)) [.successCheck ⟨.ge, .named "N"⟩]))
      .lt (.named "GOAL")) := by
    cbv
  obtain ⟨tally, last, hroll, hfigures, htext⟩ : ∃ tally last,
      (Expr.target (.binary .add
        (.dice (.number 2) (.faces (.number 6)) [.successCheck ⟨.ge, .number 4⟩])
        (.dice (.number 1) (.faces (.number 6)) [.successCheck ⟨.ge, .named "N"⟩]))
        .lt (.named "GOAL")).roll
          (Settings.setup {} [("n", 5), ("goal", 3)] (Source.cycle #[4, 2, 6]) 9) 9 {} =
        .ok tally last ∧
      (∀ n ∈ tally.figures, n.natAbs < Nat.pow 10 2) ∧
      text tally.dice tally.value tally.successes (tally.pair.map (·.tag)) tally.verdict =
        "3d6 (4✓, 2, 6✓) = 2 successes vs <3 → PASS" := by
    refine ⟨
      { value := 2
        dice := [{ sides := .faces 6, face := 4, success := true },
          { sides := .faces 6, face := 2 },
          { sides := .faces 6, face := 6, success := true }]
        successes := some 2
        verdict := some ⟨.lt, 3, true⟩ },
      { requests := #[6, 6, 6]
        used := [("N", 5), ("GOAL", 3)]
        events := #[.resolved 2 (.faces 6) 1 [4, 2] 1, .resolved 1 (.faces 6) 1 [6] 1] },
      by cbv, by decide, by decide +kernel⟩
  obtain ⟨after, hevaluate, -⟩ :=
    evaluate_of_roll hexpr hroll rfl rfl (figures_fit hfigures (by decide))
  have hsum : Expr.SumOf (·.checks ≠ []) (.binary .add
      (.dice (.number 2) (.faces (.number 6)) [.successCheck ⟨.ge, .number 4⟩])
      (.dice (.number 1) (.faces (.number 6)) [.successCheck ⟨.ge, .named "N"⟩])) :=
    .add (.term (List.cons_ne_nil _ _)) (.term (List.cons_ne_nil _ _))
  exact ⟨_, after, _, hevaluate, rfl, hexpr, hsum, htext,
    evaluate_prints_verdict hevaluate rfl hexpr⟩

set_option maxRecDepth 1024 in
/-- Where a number is added to a count, the verdict is on their sum, and the count is printed: two
    successes and 5 make 7, which is as much as the clause asks for. -/
theorem evaluate_prints_count_beside_verdict :
    ∃ report after inner,
      evaluate {} [] (Source.cycle #[4, 5]) 9 "2d6>=4+5 t>=7" {} = .ok report after ∧
      report.error = none ∧
      Settings.exprOf {} "2d6>=4+5 t>=7" = .ok (.target inner .ge (.number 7)) ∧
      report.breakdown = "2d6 (4✓, 5✓) = 2 successes vs >=7 → PASS" ∧
      printed? report.breakdown = some (2, ⟨.ge, 7, true⟩) ∧ Comparison.ge.holds 2 7 = false := by
  have hexpr : Settings.exprOf {} "2d6>=4+5 t>=7" = .ok (.target (.binary .add
      (.dice (.number 2) (.faces (.number 6)) [.successCheck ⟨.ge, .number 4⟩]) (.number 5))
      .ge (.number 7)) := by
    cbv
  obtain ⟨tally, last, hroll, hfigures, htext⟩ : ∃ tally last,
      (Expr.target (.binary .add
        (.dice (.number 2) (.faces (.number 6)) [.successCheck ⟨.ge, .number 4⟩]) (.number 5))
        .ge (.number 7)).roll (Settings.setup {} [] (Source.cycle #[4, 5]) 9) 9 {} =
        .ok tally last ∧
      (∀ n ∈ tally.figures, n.natAbs < Nat.pow 10 2) ∧
      text tally.dice tally.value tally.successes (tally.pair.map (·.tag)) tally.verdict =
        "2d6 (4✓, 5✓) = 2 successes vs >=7 → PASS" := by
    refine ⟨
      { value := 7
        dice := [{ sides := .faces 6, face := 4, success := true },
          { sides := .faces 6, face := 5, success := true }]
        successes := some 2
        verdict := some ⟨.ge, 7, true⟩ },
      { requests := #[6, 6], events := #[.resolved 2 (.faces 6) 1 [4, 5] 2] },
      by cbv, by decide, by decide +kernel⟩
  obtain ⟨after, hevaluate, -⟩ :=
    evaluate_of_roll hexpr hroll rfl rfl (figures_fit hfigures (by decide))
  refine ⟨_, after, _, hevaluate, rfl, hexpr, htext, ?_, rfl⟩
  show printed? (text _ _ _ _ _) = _
  rw [htext]
  decide +kernel

end Tabletop
