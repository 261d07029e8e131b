/-
  **The order of modifiers**: what a dice term comes to does not hang on how its modifiers of
  different kinds are mixed, and of success checks not even on which one comes first.
-/
import Mathlib
import Tabletop.Proofs.Evaluation.Stages
import Tabletop.Proofs.Rolling.Order

namespace Tabletop

open Modifier Rolling

/-- The same came of two evaluations: the same fault, or the same report with the variables in
    whatever order, after the same requests. -/
inductive SameButOrder :
    EStateM.Result Fault Ledger Report → EStateM.Result Fault Ledger Report → Prop where
  | ok {report : Report} {listed : Bindings Int} {after after' : Ledger}
      (used : report.used.Perm listed) (requests : after'.requests = after.requests) :
      SameButOrder (.ok report after) (.ok { report with used := listed } after')
  | error {fault : Fault} {after after' : Ledger} (requests : after'.requests = after.requests) :
      SameButOrder (.error fault after) (.error fault after')

/-- Of rolls that are alike reports are made that are. -/
theorem sameButOrder_reported {result result' : EStateM.Result Fault Ledger Tally}
    (h : Alike result result') (expression : String) :
    SameButOrder (reported expression result) (reported expression result') := by
  cases h with
  | error requests => exact .error requests
  | @ok tally after after' requests used =>
    cases hfits : tally.figures.all Numeral.fits with
    | true =>
      have hmade : ∀ used, Report.ofTally expression tally used =
          .ok (tally.report expression used) := fun used => ofTally_eq_ok.mpr ⟨hfits, rfl⟩
      rw [reported, reported, hmade, hmade]
      exact .ok used requests
    | false =>
      have hlong : ∀ used, Report.ofTally expression tally used = .error .tooManyDigits :=
        fun used => ofTally_eq_error.mpr ⟨hfits, rfl⟩
      rw [reported, reported, hlong, hlong]
      exact .error requests

/-- **Order of modifiers.**  Let the modifiers of a dice term be written in another order, the
    rerolls, the explosions and the selections each in the same order among themselves.  If the
    success checks are, too, the evaluation is the same in every respect; and if all thresholds of
    success checks have values, these may be in any order, and the same comes of it but for the
    order in which the variables are listed. -/
theorem evaluate_rearranged {modifiers others : List Modifier}
    (h : Rearranged (· ≠ .successCheck) modifiers others) (count : Operand) (sides : Sides Operand)
    (setup : Setup) (expression : String) :
    (ofKind .successCheck others = ofKind .successCheck modifiers →
      (Expr.dice count sides others).evaluate setup expression =
        (Expr.dice count sides modifiers).evaluate setup expression) ∧
    ((∀ check ∈ successChecks modifiers,
        (check.threshold.value? setup.table).isSome = true) →
      ∀ before : Ledger, SameButOrder
        ((Expr.dice count sides modifiers).evaluate setup expression before)
        ((Expr.dice count sides others).evaluate setup expression before)) := by
  constructor
  · intro hchecks
    have hall : Rearranged (fun _ => True) modifiers others := by
      refine ⟨h.perm, fun kind _ => ?_⟩
      by_cases hkind : kind = .successCheck
      · rw [hkind]
        exact hchecks
      · exact h.kept kind hkind
    have hroll : (Expr.dice count sides others).roll setup setup.depth =
        (Expr.dice count sides modifiers).roll setup setup.depth :=
      diceTerm_rearranged hall count sides
    funext before
    rw [evaluate_run, evaluate_run, hroll]
  · intro hdefined before
    rw [evaluate_run, evaluate_run]
    exact sameButOrder_reported (diceTerm_alike h hdefined count sides rfl) expression

/-- Four dice with a reroll, a selection and two success checks, written in three ways.  In the
    second the checks follow each other as in the first, and all is the same; in the third they are
    turned round, and all but the order of the variables is. -/
theorem evaluate_rearranged_checks :
    ∃ setup m₁ m₂ m₃ report after,
      setup = ⟨Source.cycle #[6, 2, 5, 1, 3], {}, [("A", 5), ("B", 3)], 9⟩ ∧
      m₁ = [Modifier.successCheck ⟨.ge, .named "A"⟩, .reroll ⟨.once, .le, .number 1⟩,
        .successCheck ⟨.le, .named "B"⟩, .selection ⟨.drop, .low, .number 1⟩] ∧
      m₂ = [Modifier.selection ⟨.drop, .low, .number 1⟩, .successCheck ⟨.ge, .named "A"⟩,
        .successCheck ⟨.le, .named "B"⟩, .reroll ⟨.once, .le, .number 1⟩] ∧
      m₃ = [Modifier.successCheck ⟨.le, .named "B"⟩, .selection ⟨.drop, .low, .number 1⟩,
        .reroll ⟨.once, .le, .number 1⟩, .successCheck ⟨.ge, .named "A"⟩] ∧
      (Expr.dice (.number 4) (.faces (.number 6)) m₁).evaluate setup "" {} = .ok report after ∧
      report.total = 3 ∧ report.used = [("A", 5), ("B", 3)] ∧
      (Expr.dice (.number 4) (.faces (.number 6)) m₂).evaluate setup "" =
        (Expr.dice (.number 4) (.faces (.number 6)) m₁).evaluate setup "" ∧
      SameButOrder ((Expr.dice (.number 4) (.faces (.number 6)) m₁).evaluate setup "" {})
        ((Expr.dice (.number 4) (.faces (.number 6)) m₃).evaluate setup "" {}) := by
  generalize hsetup :
    Setup.mk (Source.cycle #[6, 2, 5, 1, 3]) {} [("A", 5), ("B", 3)] 9 = setup
  generalize hm₁ : [Modifier.successCheck ⟨.ge, .named "A"⟩, .reroll ⟨.once, .le, .number 1⟩,
    .successCheck ⟨.le, .named "B"⟩, .selection ⟨.drop, .low, .number 1⟩] = m₁
  generalize hm₂ : [Modifier.selection ⟨.drop, .low, .number 1⟩, .successCheck ⟨.ge, .named "A"⟩,
    .successCheck ⟨.le, .named "B"⟩, .reroll ⟨.once, .le, .number 1⟩] = m₂
  generalize hm₃ : [Modifier.successCheck ⟨.le, .named "B"⟩,
    .selection ⟨.drop, .low, .number 1⟩, .reroll ⟨.once, .le, .number 1⟩,
    .successCheck ⟨.ge, .named "A"⟩] = m₃
  have h₂ : Rearranged (· ≠ .successCheck) m₁ m₂ := by
    rw [← hm₁, ← hm₂]
    exact ⟨by decide, fun kind _ => by cases kind <;> decide⟩
  have hchecks : ofKind .successCheck m₂ = ofKind .successCheck m₁ := by
    rw [← hm₁, ← hm₂]
    decide
  have h₃ : Rearranged (· ≠ .successCheck) m₁ m₃ := by
    rw [← hm₁, ← hm₃]
    refine ⟨by decide, fun kind hkind => ?_⟩
    cases kind with
    | successCheck => exact absurd rfl hkind
    | _ => decide
  have hdefined : ∀ check ∈ successChecks m₁,
      (check.threshold.value? setup.table).isSome = true := by
    rw [← hm₁, ← hsetup]
    decide
  obtain ⟨tally, after, hroll, hfigures, hvalue, hused⟩ : ∃ tally after,
      (Expr.dice (.number 4) (.faces (.number 6)) m₁).roll setup setup.depth {} =
        .ok tally after ∧
      (∀ n ∈ tally.figures, n.natAbs < Nat.pow 10 2) ∧ tally.value = 3 ∧
        after.used = [("A", 5), ("B", 3)] := by
    rw [← hm₁, ← hsetup]
    exact ⟨
      { value := 3
        dice := [{ sides := .faces 6, face := 6, success := true },
          { sides := .faces 6, face := 2, dropped := true },
          { sides := .faces 6, face := 5, success := true },
          { sides := .faces 6, face := 1, rerolled := true },
          { sides := .faces 6, face := 3, success := true }]
        successes := some 3 },
      { requests := #[6, 6, 6, 6, 6]
        used := [("A", 5), ("B", 3)]
        events := #[.resolved 4 (.faces 6) 4 [6, 2, 5, 1, 3] 3] }, by cbv, by decide, rfl, rfl⟩
  obtain ⟨_, hreport⟩ := exists_report hfigures (by decide) "" after.used
  obtain ⟨-, rfl⟩ := ofTally_eq_ok.mp hreport
  refine ⟨setup, m₁, m₂, m₃, tally.report "" after.used, after, rfl, rfl, rfl, rfl, ?_, hvalue,
    hused, (evaluate_rearranged h₂ _ _ setup "").1 hchecks,
    (evaluate_rearranged h₃ _ _ setup "").2 hdefined {}⟩
  exact evaluate_eq_ok.mpr ⟨tally, hroll, hreport⟩

end Tabletop
