/-
  **Hope and Fear in a report**: it tells of one Hope/Fear roll, the last one that was rolled.

  So a report of several such rolls still says one thing.  Its two faces can be read off the dice
  that it lists, its tag follows from the faces, and all three come from the same roll.
-/
import Mathlib
import Tabletop.Proofs.Evaluation.Stages
import Tabletop.Proofs.Rolling.Pairs

namespace Tabletop

open Rolling

/-- **Hope and Fear.**  Where an evaluation gives a report, it tells of hope and fear just when a
    Hope/Fear roll is among the terms of the expression.  Then the faces are those of the last die
    of hope and of the last die of fear that it lists; both are of the last such roll, and the tag
    says which of them is the larger one. -/
theorem evaluate_tells_last_pair {expr : Expr} {setup : Setup} {expression : String}
    {before after : Ledger} {report : Report}
    (h : expr.evaluate setup expression before = .ok report after) :
    ((report.hope = none ∧ report.fear = none ∧ report.tag = none) ↔
        ∀ term ∈ expr.terms, term.isHopeFear = false) ∧
      ((∃ term ∈ expr.terms, term.isHopeFear = true) →
        ∃ (pair : HopeFear) (tag : String),
          report.hope = some pair.hope ∧ report.fear = some pair.fear ∧ report.tag = some tag ∧
          lastFace Role.hope report.rolls = some pair.hope ∧
          lastFace Role.fear report.rolls = some pair.fear ∧
          LastPair setup expr report.rolls pair ∧
          (tag = "Critical" ↔ pair.hope = pair.fear) ∧
          (tag = "Hope" ↔ pair.fear < pair.hope) ∧ (tag = "Fear" ↔ pair.hope < pair.fear)) := by
  obtain ⟨tally, hroll, hreport⟩ := evaluate_eq_ok.mp h
  obtain ⟨-, rfl⟩ := ofTally_eq_ok.mp hreport
  obtain ⟨hnone, hlast⟩ := roll_pair hroll
  constructor
  · rw [← hnone]
    simp [Tally.report]
  · rintro ⟨term, hterm, hspecial⟩
    obtain ⟨pair, hpair⟩ : ∃ pair, tally.pair = some pair := by
      rw [← Option.ne_none_iff_exists']
      intro habsent
      rw [hnone.mp habsent term hterm] at hspecial
      cases hspecial
    have htold := hlast pair hpair
    refine ⟨pair, pair.tag, ?_, ?_, ?_, htold.lastFace.1, htold.lastFace.2, htold, pair.tag_spec⟩
    · exact congrArg (Option.map (·.hope)) hpair
    · exact congrArg (Option.map (·.fear)) hpair
    · exact congrArg (Option.map (·.tag)) hpair

/-- Of two Hope/Fear rolls, the one with 3 and 9 is passed over, and what comes after the other lays
    no more dice of hope or fear. -/
theorem evaluate_tells_last_pair_critical :
    ∃ expr report after,
      expr = Expr.binary .sub
        (.target (.binary .add (.hopeFear (.number 0) (.number 0) [])
          (.hopeFear (.number 1) (.number 0) [])) .ge (.number 20))
        (.dice (.number 1) (.faces (.number 6)) []) ∧
      expr.evaluate ⟨Source.cycle #[3, 9, 7, 7, 4, 5], {}, [], 9⟩ "dh+dh a1>=20-1d6" {} =
        .ok report after ∧
      (∃ term ∈ expr.terms, term.isHopeFear = true) ∧ report.tag = some "Critical" ∧
      ∃ (pair : HopeFear) (tag : String),
        report.hope = some pair.hope ∧ report.fear = some pair.fear ∧ report.tag = some tag ∧
        lastFace Role.hope report.rolls = some pair.hope ∧
        lastFace Role.fear report.rolls = some pair.fear ∧
        LastPair ⟨Source.cycle #[3, 9, 7, 7, 4, 5], {}, [], 9⟩ expr report.rolls pair ∧
        (tag = "Critical" ↔ pair.hope = pair.fear) ∧
        (tag = "Hope" ↔ pair.fear < pair.hope) ∧ (tag = "Fear" ↔ pair.hope < pair.fear) := by
  generalize hexpr : Expr.binary .sub
    (.target (.binary .add (.hopeFear (.number 0) (.number 0) [])
      (.hopeFear (.number 1) (.number 0) [])) .ge (.number 20))
    (.dice (.number 1) (.faces (.number 6)) []) = expr
  have hspecial : ∃ term ∈ expr.terms, term.isHopeFear = true := by
    rw [← hexpr]
    exact ⟨_, List.mem_cons_self, rfl⟩
  obtain ⟨tally, after, hroll, hfigures, hpair⟩ : ∃ tally after,
      expr.roll ⟨Source.cycle #[3, 9, 7, 7, 4, 5], {}, [], 9⟩ 9 {} = .ok tally after ∧
      (∀ n ∈ tally.figures, n.natAbs < Nat.pow 10 2) ∧ tally.pair = some ⟨7, 7⟩ := by
    rw [← hexpr]
    refine ⟨
      { value := 25
        dice := [{ sides := .faces 12, face := 3, role := some Role.hope },
          { sides := .faces 12, face := 9, role := some Role.fear },
          { sides := .faces 12, face := 7, role := some Role.hope },
          { sides := .faces 12, face := 7, role := some Role.fear },
          { sides := .faces 6, face := 4, role := some Role.advantage },
          { sides := .faces 6, face := 5 }]
        pair := some ⟨7, 7⟩
        verdict := some ⟨.ge, 20, true⟩ },
      { requests := #[12, 12, 12, 12, 6, 6]
        events := #[.resolved 1 (.faces 6) 0 [5] 5] },
      by cbv, by decide, rfl⟩
  obtain ⟨_, hreport⟩ := exists_report hfigures (by decide) "dh+dh a1>=20-1d6" after.used
  obtain ⟨-, rfl⟩ := ofTally_eq_ok.mp hreport
  have hevaluate :
      expr.evaluate ⟨Source.cycle #[3, 9, 7, 7, 4, 5], {}, [], 9⟩ "dh+dh a1>=20-1d6" {} =
      .ok (tally.report "dh+dh a1>=20-1d6" after.used) after :=
    evaluate_eq_ok.mpr ⟨tally, hroll, hreport⟩
  refine ⟨expr, tally.report "dh+dh a1>=20-1d6" after.used, after, rfl, hevaluate, hspecial, ?_,
    (evaluate_tells_last_pair hevaluate).2 hspecial⟩
  show tally.pair.map (·.tag) = some "Critical"
  rw [hpair]
  rfl

end Tabletop
