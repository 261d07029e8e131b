/-
  **Conservation in a report**: each term has its block among the dice that are listed, and in every
  block the marks account for the dice.

  So a reader of a report can tell from the marks alone which dice were drawn at first, which came
  in for others and which came on top, and no die is counted in two ways.
-/
import Mathlib
import Tabletop.Proofs.Evaluation.Stages
import Tabletop.Proofs.Rolling.Conservation

namespace Tabletop

open Rolling

/-- **Conservation.**  Where an evaluation gives a report, its dice are the blocks that the terms of
    the expression left, and each block is conserved: in that of a dice term there are as many dice
    as its number says, one more for each that was rerolled and one more for each that exploded.
    The marks of every die listed can stand together, and a die with a role has none. -/
theorem evaluate_conserves {expr : Expr} {setup : Setup} {expression : String}
    {before after : Ledger} {report : Report}
    (h : expr.evaluate setup expression before = .ok report after) :
    ∃ blocks : List (List Die), blocks.flatten = report.rolls ∧
      List.Forall₂ (fun term block => LeftBy setup term block ∧ Conserved setup.table term block)
        expr.terms blocks ∧
      ∀ die ∈ report.rolls, die.Coherent ∧ (die.role ≠ none → die.Unmarked) := by
  obtain ⟨tally, hroll, hreport⟩ := evaluate_eq_ok.mp h
  obtain ⟨-, rfl⟩ := ofTally_eq_ok.mp hreport
  obtain ⟨blocks, hblocks, hleft⟩ := blocks_of_roll hroll
  have hconserved := conserved_of_leftBy hleft
  refine ⟨blocks, hblocks, hconserved, fun die hdie => ?_⟩
  have hdice : die ∈ blocks.flatten := hblocks ▸ hdie
  exact forall_mem_flatten (fun term block h => h.2.marks) hconserved die hdice

/-- Three dice that are rerolled, explode, and are dropped and counted, beside a Hope/Fear roll: 1
    is replaced by 6, and both sixes bring a die, of which the 2 is dropped.  One reroll and two
    explosions make six dice of three. -/
theorem evaluate_conserves_sum :
    ∃ expr report after,
      expr = Expr.binary .add
        (.dice (.number 3) (.faces (.named "N"))
          [.successCheck ⟨.ge, .number 5⟩, .selection ⟨.drop, .low, .number 1⟩,
            .explosion ⟨.ge, none, none⟩, .reroll ⟨.once, .le, .number 1⟩])
        (.hopeFear (.number 1) (.number 0) [.successCheck ⟨.ge, .number 1⟩]) ∧
      expr.evaluate ⟨Source.cycle #[1, 6, 4, 6, 5, 2, 7, 3, 4], {}, [("N", 6)], 9⟩
        "3d@n>=5dl1!r<=1+dh a1>=1" {} = .ok report after ∧
      report.rolls.map (fun die => (die.face, die.rerolled, die.exploded, die.dropped)) =
        [(1, true, false, false), (6, false, true, false), (4, false, false, false),
          (6, false, true, false), (5, false, false, false), (2, false, false, true),
          (7, false, false, false), (3, false, false, false), (4, false, false, false)] ∧
        ∃ blocks : List (List Die), blocks.flatten = report.rolls ∧
          List.Forall₂ (fun term block =>
              LeftBy ⟨Source.cycle #[1, 6, 4, 6, 5, 2, 7, 3, 4], {}, [("N", 6)], 9⟩ term block ∧
                Conserved [("N", 6)] term block) expr.terms blocks ∧
          ∀ die ∈ report.rolls, die.Coherent ∧ (die.role ≠ none → die.Unmarked) := by
  generalize hexpr : Expr.binary .add
    (.dice (.number 3) (.faces (.named "N"))
      [.successCheck ⟨.ge, .number 5⟩, .selection ⟨.drop, .low, .number 1⟩,
        .explosion ⟨.ge, none, none⟩, .reroll ⟨.once, .le, .number 1⟩])
    (.hopeFear (.number 1) (.number 0) [.successCheck ⟨.ge, .number 1⟩]) = expr
  obtain ⟨tally, after, hroll, hfigures, hmarks⟩ : ∃ tally after,
      expr.roll ⟨Source.cycle #[1, 6, 4, 6, 5, 2, 7, 3, 4], {}, [("N", 6)], 9⟩ 9 {} =
        .ok tally after ∧
      (∀ n ∈ tally.figures, n.natAbs < Nat.pow 10 2) ∧
      tally.dice.map (fun die => (die.face, die.rerolled, die.exploded, die.dropped)) =
        [(1, true, false, false), (6, false, true, false), (4, false, false, false),
          (6, false, true, false), (5, false, false, false), (2, false, false, true),
          (7, false, false, false), (3, false, false, false), (4, false, false, false)] := by
    rw [← hexpr]
    refine ⟨
      { value := 17
        dice := [{ sides := .faces 6, face := 1, rerolled := true },
          { sides := .faces 6, face := 6, exploded := true, success := true },
          { sides := .faces 6, face := 4 },
          { sides := .faces 6, face := 6, exploded := true, success := true },
          { sides := .faces 6, face := 5, success := true },
          { sides := .faces 6, face := 2, dropped := true },
          { sides := .faces 12, face := 7, role := some Role.hope },
          { sides := .faces 12, face := 3, role := some Role.fear },
          { sides := .faces 6, face := 4, role := some Role.advantage }]
        successes := some 3
        pair := some ⟨7, 3⟩ },
      { requests := #[6, 6, 6, 6, 6, 6, 12, 12, 6]
        used := [("N", 6)]
        events := #[.resolved 3 (.faces 6) 4 [1, 6, 4, 6, 5, 2] 3, .ignoredModifiers 1] },
      by cbv, by decide, rfl⟩
  obtain ⟨_, hreport⟩ := exists_report hfigures (by decide) "3d@n>=5dl1!r<=1+dh a1>=1" after.used
  obtain ⟨-, rfl⟩ := ofTally_eq_ok.mp hreport
  refine ⟨expr, tally.report "3d@n>=5dl1!r<=1+dh a1>=1" after.used, after, rfl, ?run, hmarks,
    evaluate_conserves ?run⟩
  exact evaluate_eq_ok.mpr ⟨tally, hroll, hreport⟩

end Tabletop
