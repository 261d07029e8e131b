/-
  **What pools account for**: the total of a sum of Hope/Fear rolls, added up from its breakdown.

  The total counts one best die for each pool of each roll.  The breakdown shows all dice of a pool
  in one part, whichever rolls they are of, and one best die for them together.  So what it shows
  misses the best dice of the other rolls (`surplus`), and accounts for the total where each pool is
  of one roll only.
-/
import Mathlib
import Tabletop.Proofs.Breakdown.Pools
import Tabletop.Proofs.Evaluation.Breakdown

namespace Tabletop

open Breakdown Rolling

/-! ## One best die for each block, and one for all -/

/-- What the best dice with a role, one for each block, come to beyond the best of them all. -/
def surplus (role : String) (blocks : List (List Die)) : Int :=
  (blocks.map (bestOf role)).sum - bestOf role blocks.flatten

/-- The blocks that hold dice with a role. -/
def blocksWith (role : String) (blocks : List (List Die)) : List (List Die) :=
  blocks.filter fun block => facesOf role block ≠ []

/-- The others add nothing to the best dice: induction on the blocks. -/
theorem surplus_blocksWith (role : String) (blocks : List (List Die)) :
    surplus role (blocksWith role blocks) = surplus role blocks := by
  have hsame : ((blocksWith role blocks).map (bestOf role)).sum = (blocks.map (bestOf role)).sum ∧
      facesOf role (blocksWith role blocks).flatten = facesOf role blocks.flatten := by
    induction blocks with
    | nil => exact ⟨rfl, rfl⟩
    | cons block blocks ih =>
      obtain ⟨hsum, hfaces⟩ := ih
      by_cases hblock : facesOf role block = []
      · have hbest : bestOf role block = 0 := by
          rw [bestOf, hblock]
          rfl
        have hleft : blocksWith role (block :: blocks) = blocksWith role blocks :=
          List.filter_cons_of_neg (by simpa using hblock)
        rw [hleft, hsum, hfaces, List.map_cons, List.sum_cons, hbest, List.flatten_cons,
          facesOf_append, hblock]
        simp
      · have hkept : blocksWith role (block :: blocks) = block :: blocksWith role blocks :=
          List.filter_cons_of_pos (by simpa using hblock)
        rw [hkept, List.map_cons, List.sum_cons, hsum, List.flatten_cons, facesOf_append, hfaces]
        simp [facesOf_append]
  rw [surplus, surplus, hsame.1, bestOf, hsame.2, bestOf]

/-- The best die of one block is the best of all. -/
theorem surplus_eq_zero {role : String} {blocks : List (List Die)}
    (h : (blocksWith role blocks).length ≤ 1) : surplus role blocks = 0 := by
  rw [← surplus_blocksWith]
  rcases Nat.le_one_iff_eq_zero_or_eq_one.mp h with hnone | hone
  · rw [List.length_eq_zero_iff.mp hnone]
    rfl
  · obtain ⟨block, hblock⟩ := List.length_eq_one_iff.mp hone
    rw [hblock, surplus, List.map_singleton, List.sum_singleton, List.flatten_singleton, sub_self]

/-! ## Reports -/

/-- Every die of a Hope/Fear roll has a role. -/
theorem IsBlock.role_ne_none {table : Bindings Int} {term : Expr} {block : List Die}
    (hterm : term.isHopeFear = true) (h : IsBlock table term block) :
    ∀ die ∈ block, die.role ≠ none := by
  cases h with
  | dice size marked => cases hterm
  | hopeFear first second pool other unmarked =>
    simp only [List.forall_mem_cons, List.forall_mem_append]
    refine ⟨by simp [first], by simp [second], fun die hdie => ?_, fun die hdie => ?_⟩
    · simp [pool die hdie]
    · simp [other die hdie]

variable {setup : Setup}

/-- **Pools.**  Let a sum of Hope/Fear rolls give a report.  The faces of hope and fear that its
    breakdown shows, and what it says that its pools count, add up to the total but for the best
    dice that it leaves out, one for each further roll with dice in a pool.  They add up to the
    total if no pool has dice of two rolls. -/
theorem evaluate_pools {expr : Expr} (hsum : expr.SumOf (·.isHopeFear = true))
    {expression : String} {before after : Ledger} {report : Report}
    (h : expr.evaluate setup expression before = .ok report after) :
    ∃ blocks : List (List Die), blocks.flatten = report.rolls ∧
      List.Forall₂ (IsBlock setup.table) expr.terms blocks ∧
      report.total = (counted report.breakdown).sum +
        surplus Role.advantage blocks - surplus Role.disadvantage blocks ∧
      ((∀ role ∈ [Role.advantage, Role.disadvantage], (blocksWith role blocks).length ≤ 1) →
        report.total = (counted report.breakdown).sum) := by
  obtain ⟨tally, hroll, hreport⟩ := evaluate_eq_ok.mp h
  obtain ⟨hfigures, rfl⟩ := ofTally_eq_ok.mp hreport
  obtain ⟨blocks, hblocks, hrecounts⟩ := recounted_of_roll hroll
  have hlaid := laid_of_roll hroll
  -- All terms are Hope/Fear rolls, so no die is without a role.
  have hrole : ∀ die ∈ tally.dice, die.role ≠ none := by
    rw [← hblocks]
    have hspecial := hsum.forall_mem_terms fun term => mem_terms_of_isHopeFear
    exact forall_mem_flatten (fun term block hterm => hterm.2.role_ne_none hterm.1)
      ((List.forall₂_and_left _ _).mpr ⟨hspecial, hrecounts.fit⟩)
  have haccounts := accounts_text (kinds_special hlaid hrole) (fits_of_figures hfigures).1
    tally.value tally.successes tally.tag_mem tally.verdict
  have hcounted : (counted (tally.report expression after.used).breakdown).sum =
      (facesOf Role.hope tally.dice).sum + (facesOf Role.fear tally.dice).sum +
        bestOf Role.advantage tally.dice - bestOf Role.disadvantage tally.dice := by
    rw [← sum_countedIn hlaid hrole (length_facesOf_of_roll hroll)]
    exact congrArg List.sum haccounts.counted_eq
  have hvalue := hrecounts.value_of_hopeFear hsum
  rw [hblocks] at hvalue
  have htotal : tally.value = (counted (tally.report expression after.used).breakdown).sum +
      surplus Role.advantage blocks - surplus Role.disadvantage blocks := by
    rw [hcounted, surplus, surplus, hblocks, hvalue]
    omega
  refine ⟨blocks, hblocks, hrecounts.fit, htotal, fun hone => ?_⟩
  have hadvantage := surplus_eq_zero (hone Role.advantage (by simp))
  have hdisadvantage := surplus_eq_zero (hone Role.disadvantage (by simp))
  rw [hadvantage, hdisadvantage] at htotal
  exact htotal.trans (by omega)

/-- Two rolls with one die each in the same pool: 4 and 6 count, and the breakdown shows that 6
    does. -/
theorem evaluate_pools_two :
    ∃ expr report after,
      expr = Expr.binary .add (.hopeFear (.number 1) (.number 0) [])
        (.hopeFear (.number 1) (.number 0) []) ∧
      expr.SumOf (·.isHopeFear = true) ∧
      expr.evaluate ⟨Source.cycle #[7, 3, 4, 8, 8, 6], {}, [], 9⟩ "dh a1 + dh a1" {} =
        .ok report after ∧
      report.breakdown = "2d12: Hope(7) + Fear(3) + 2d12: Hope(8) + Fear(8) + " ++
        "2d6 advantage (4, 6) → +6 = 36 [Critical]" ∧
      report.total = 36 ∧ (counted report.breakdown).sum = 32 ∧
      ∃ blocks : List (List Die), blocks.flatten = report.rolls ∧
        List.Forall₂ (IsBlock []) expr.terms blocks ∧
        report.total = (counted report.breakdown).sum +
          surplus Role.advantage blocks - surplus Role.disadvantage blocks ∧
        ((∀ role ∈ [Role.advantage, Role.disadvantage], (blocksWith role blocks).length ≤ 1) →
          report.total = (counted report.breakdown).sum) := by
  generalize hexpr : Expr.binary .add (.hopeFear (.number 1) (.number 0) [])
    (.hopeFear (.number 1) (.number 0) []) = expr
  obtain ⟨tally, after, hroll, hfigures, hvalue, htext⟩ : ∃ tally after,
      expr.roll ⟨Source.cycle #[7, 3, 4, 8, 8, 6], {}, [], 9⟩ 9 {} = .ok tally after ∧
      (∀ n ∈ tally.figures, n.natAbs < Nat.pow 10 2) ∧ tally.value = 36 ∧
      text tally.dice tally.value tally.successes (tally.pair.map (·.tag)) tally.verdict =
        "2d12: Hope(7) + Fear(3) + 2d12: Hope(8) + Fear(8) + " ++
          "2d6 advantage (4, 6) → +6 = 36 [Critical]" := by
    rw [← hexpr]
    refine ⟨
      { value := 36
        dice := [{ sides := .faces 12, face := 7, role := some Role.hope },
          { sides := .faces 12, face := 3, role := some Role.fear },
          { sides := .faces 6, face := 4, role := some Role.advantage },
          { sides := .faces 12, face := 8, role := some Role.hope },
          { sides := .faces 12, face := 8, role := some Role.fear },
          { sides := .faces 6, face := 6, role := some Role.advantage }]
        pair := some ⟨8, 8⟩ },
      { requests := #[12, 12, 6, 12, 12, 6] }, by cbv, by decide, rfl, by decide +kernel⟩
  have hsum : expr.SumOf (·.isHopeFear = true) := by
    rw [← hexpr]
    exact .add (.term rfl) (.term rfl)
  obtain ⟨_, hreport⟩ := exists_report hfigures (by decide) "dh a1 + dh a1" after.used
  obtain ⟨-, rfl⟩ := ofTally_eq_ok.mp hreport
  have hevaluate : expr.evaluate ⟨Source.cycle #[7, 3, 4, 8, 8, 6], {}, [], 9⟩ "dh a1 + dh a1" {} =
      .ok (tally.report "dh a1 + dh a1" after.used) after :=
    evaluate_eq_ok.mpr ⟨tally, hroll, hreport⟩
  have hcounted : (counted (tally.report "dh a1 + dh a1" after.used).breakdown).sum = 32 := by
    show (counted (text _ _ _ _ _)).sum = 32
    rw [htext]
    decide +kernel
  exact ⟨expr, _, after, rfl, hsum, hevaluate, htext, hvalue, hcounted,
    evaluate_pools hsum hevaluate⟩

end Tabletop
