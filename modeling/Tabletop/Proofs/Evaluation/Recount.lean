/-
  **Recounting a report**: its total and its successes, computed again from the dice that it lists.

  The dice of a report fall into blocks, one for each dice term or Hope/Fear roll of the expression,
  from left to right.  What was done to the dice on the way shows in their marks, so no more is
  needed: neither the source nor the order in which the modifiers took effect.
-/
import Mathlib
import Tabletop.Proofs.Evaluation.Stages
import Tabletop.Proofs.Rolling.Recount

namespace Tabletop

open Rolling

/-- **Recounting.**  Where an evaluation gives a report, its dice are blocks of the terms of the
    expression, and with what they are worth in the places of the terms the expression is calculated
    to the total; the successes are there just when a dice term checks for some, and then they are
    the dice so marked. -/
theorem evaluate_recounts {expr : Expr} {setup : Setup} {expression : String}
    {before after : Ledger} {report : Report}
    (h : expr.evaluate setup expression before = .ok report after) :
    ∃ blocks : List (List Die), blocks.flatten = report.rolls ∧
      Recounts setup.table expr blocks report.total report.successes := by
  obtain ⟨tally, hroll, hreport⟩ := evaluate_eq_ok.mp h
  obtain ⟨-, rfl⟩ := ofTally_eq_ok.mp hreport
  have hensures : Ensures (Recounted setup.table expr) (Excused setup fun _ => True)
      (expr.roll setup setup.depth) :=
    roll_recounts (namedAll_of_roll_eq_ok _ _ _ _ hroll) setup.depth
  exact hensures.value hroll

/-- A count of successes times a Hope/Fear roll, to whose modifiers nothing is due: of the dice 5, 6
    and 5 the first is dropped, which leaves two successes, and 7, 3 and the better pool make 14. -/
theorem evaluate_recounts_product :
    ∃ expr report after,
      expr = Expr.binary .mul
        (.dice (.number 3) (.faces (.named "N"))
          [.successCheck ⟨.ge, .number 5⟩, .selection ⟨.drop, .low, .number 1⟩])
        (.hopeFear (.number 1) (.number 0) [.successCheck ⟨.ge, .number 1⟩]) ∧
      expr.evaluate ⟨Source.cycle #[5, 6, 5, 7, 3, 4], {}, [("N", 6)], 9⟩ "3d@n>=5dl1*dh a1>=1" {} =
        .ok report after ∧
      report.total = 28 ∧ report.successes = some 2 ∧
        ∃ blocks : List (List Die), blocks.flatten = report.rolls ∧
          Recounts [("N", 6)] expr blocks report.total report.successes := by
  generalize hexpr : Expr.binary .mul
    (.dice (.number 3) (.faces (.named "N"))
      [.successCheck ⟨.ge, .number 5⟩, .selection ⟨.drop, .low, .number 1⟩])
    (.hopeFear (.number 1) (.number 0) [.successCheck ⟨.ge, .number 1⟩]) = expr
  obtain ⟨tally, after, hroll, hfigures, hvalue, hsuccesses⟩ : ∃ tally after,
      expr.roll ⟨Source.cycle #[5, 6, 5, 7, 3, 4], {}, [("N", 6)], 9⟩ 9 {} =
        .ok tally after ∧
      tally.figures = [5, 6, 5, 7, 3, 4, 6, 6, 6, 2] ∧ tally.value = 28 ∧
        tally.successes = some 2 := by
    rw [← hexpr]
    refine ⟨
      { value := 28
        dice := [{ sides := .faces 6, face := 5, dropped := true },
          { sides := .faces 6, face := 6, success := true },
          { sides := .faces 6, face := 5, success := true },
          { sides := .faces 12, face := 7, role := some Role.hope },
          { sides := .faces 12, face := 3, role := some Role.fear },
          { sides := .faces 6, face := 4, role := some Role.advantage }]
        successes := some 2
        pair := some ⟨7, 3⟩ },
      { requests := #[6, 6, 6, 12, 12, 6]
        used := [("N", 6)]
        events := #[.resolved 3 (.faces 6) 2 [5, 6, 5] 2, .ignoredModifiers 1] },
      by cbv, by cbv, rfl, rfl⟩
  have hshort : ∀ n ∈ tally.figures, n.natAbs < Nat.pow 10 1 := by
    rw [hfigures]
    decide
  obtain ⟨_, hreport⟩ := exists_report hshort (by decide) "3d@n>=5dl1*dh a1>=1" after.used
  obtain ⟨-, rfl⟩ := ofTally_eq_ok.mp hreport
  refine ⟨expr, tally.report "3d@n>=5dl1*dh a1>=1" after.used, after, rfl, ?run, hvalue,
    hsuccesses, evaluate_recounts ?run⟩
  exact evaluate_eq_ok.mpr ⟨tally, hroll, hreport⟩

end Tabletop
