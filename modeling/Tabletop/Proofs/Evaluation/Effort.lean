/-
  **Effort**: an evaluation asks its source for no more than the limits allow.

  Conditions that every face meets do not make it go on for ever, and a source that does not keep to
  its bounds does not either: what bounds a term is how many dice it has and how far its limits go,
  not what the dice show.  This holds of evaluations that fail, too, up to where they fail; the call
  that failed for want of an answer is one of those counted.
-/
import Mathlib
import Tabletop.Proofs.Evaluation.Stages
import Tabletop.Proofs.Rolling.Effort
import Tabletop.Proofs.Rolling.Terms

namespace Tabletop

open Rolling

/-- What is seen of a fault tells whether the source had no answer. -/
theorem Fault.seen_ne_noDraws {fault : Fault} (h : fault ≠ .defect .noDraws) :
    fault.seen ≠ .defect .noDraws := by
  unfold Fault.seen
  split
  · split
    · exact nofun
    · exact nofun
  · exact h

/-- To report on a roll asks for nothing. -/
theorem calls_reported {source : Source} {before : Ledger} {calls : List Nat}
    {result : EStateM.Result Fault Ledger Tally} (expression : String)
    (h : Calls source before result calls) :
    Calls source before (reported expression result) calls := by
  cases h with
  | @ok tally after calls made =>
    rw [reported]
    cases hreport : Report.ofTally expression tally after.used with
    | ok report => exact .ok made
    | error defect =>
      obtain ⟨-, rfl⟩ := ofTally_eq_error.mp hreport
      exact .error made (by simp)
  | error made answered => exact .error made (Fault.seen_ne_noDraws answered)
  | dry made unanswered => exact .dry made unanswered

/-- **Bounded effort.**  Let no explosion set a limit of its own.  Whether an evaluation goes well
    or not, its calls fall into shares, one for each term that was begun; the share of a term is
    what a roll of that term asks for, and it is no more than the term may ask for.  And each call
    is for a die that a Hope/Fear roll or a Fate die needs, or for one of a size that the limit
    allows. -/
theorem evaluate_bounded {expr : Expr} {setup : Setup} (hrerolls : 1 ≤ setup.limits.rerolls)
    (hexplosions : 1 ≤ setup.limits.explosions)
    (hlimit : ∀ term ∈ expr.terms, ∀ m ∈ Modifier.explosions term.modifiers, m.limit = none)
    (expression : String) (before : Ledger) :
    ∃ begun shares, begun <+: expr.terms ∧
      List.Forall₂ (fun term calls => AskedBy setup term calls ∧ Affordable setup term calls)
        begun shares ∧
      Calls setup.source before (expr.evaluate setup expression before) shares.flatten ∧
      (∀ report after, expr.evaluate setup expression before = .ok report after →
        begun = expr.terms) ∧
      ∀ bound ∈ shares.flatten,
        bound ∈ [3, 6, 12] ∨ 1 ≤ bound ∧ (bound : Int) ≤ setup.limits.sides := by
  have hterm : ∀ term ∈ expr.terms, ∀ room start, ∃ calls,
      Calls setup.source start (term.roll setup room start) calls ∧
        AskedBy setup term calls ∧ Affordable setup term calls := by
    intro term hmem room start
    have hcalls : ∃ calls, Calls setup.source start (term.roll setup room start) calls ∧
        Affordable setup term calls := by
      rcases term_of_mem_terms hmem with ⟨count, sides, modifiers, rfl⟩ | ⟨m, n, modifiers, rfl⟩
      · exact diceTerm_affordable (by omega) (by omega) (hlimit _ hmem) start
      · exact hopeFearTerm_affordable modifiers start
    obtain ⟨calls, hcalls, haffordable⟩ := hcalls
    exact ⟨calls, hcalls, ⟨room, start, hcalls⟩, haffordable⟩
  obtain ⟨begun, shares, hbegun, hshares, hcalls, hall⟩ :=
    calls_of_roll hterm setup.depth { before with used := [] }
  refine ⟨begun, shares, hbegun, hshares, ?_, fun report after hok => ?_, fun bound hbound => ?_⟩
  · rw [evaluate_run]
    exact calls_reported expression (hcalls.of_requests rfl)
  · obtain ⟨tally, hroll, -⟩ := evaluate_eq_ok.mp hok
    exact hall tally after hroll
  · exact forall_mem_flatten (fun term calls h => h.2.bounds) hshares bound hbound

/-- A condition that every face meets, and a source whose answers are faces of no die: two dice are
    replaced, three spare draws are spent, two explosions happen, and then the sum is divided by
    zero.  That makes nine calls, as many as these dice may make. -/
theorem evaluate_bounded_division :
    ∃ expr setup after,
      expr = Expr.binary .div
        (.dice (.number 2) (.faces (.number 6))
          [.reroll ⟨.continuous, .ge, .number 1⟩, .explosion ⟨.ge, some (.number 1), none⟩])
        (.number 0) ∧
      setup = ⟨Source.always 9, { explosions := 2, rerolls := 3 }, [], 9⟩ ∧
      expr.evaluate setup "2d6ro>=1!>=1/0" {} =
        .error (.expr (.hazard .divisionByZero)) after ∧
      ∃ begun shares, begun <+: expr.terms ∧
        List.Forall₂ (fun term calls => AskedBy setup term calls ∧ Affordable setup term calls)
          begun shares ∧
        Calls setup.source {} (expr.evaluate setup "2d6ro>=1!>=1/0" {}) shares.flatten ∧
        shares.flatten.length = 9 ∧
        ∀ bound ∈ shares.flatten,
          bound ∈ [3, 6, 12] ∨ 1 ≤ bound ∧ (bound : Int) ≤ setup.limits.sides := by
  generalize hexpr : Expr.binary .div
    (.dice (.number 2) (.faces (.number 6))
      [.reroll ⟨.continuous, .ge, .number 1⟩, .explosion ⟨.ge, some (.number 1), none⟩])
    (.number 0) = expr
  generalize hsetup : Setup.mk (Source.always 9) { explosions := 2, rerolls := 3 } [] 9 = setup
  obtain ⟨after, hrun, hmade⟩ : ∃ after, expr.evaluate setup "2d6ro>=1!>=1/0" {} =
      .error (.expr (.hazard .divisionByZero)) after ∧
        after.requests = (List.replicate 9 6).toArray := by
    rw [← hexpr, ← hsetup]
    exact ⟨
      { requests := (List.replicate 9 6).toArray
        events := #[.rerollLimit 3, .rerollLimit 3, .explosionLimit 2,
          .resolved 2 (.faces 6) 2 (List.replicate 9 9) 36] }, by cbv, rfl⟩
  have hrerolls : 1 ≤ setup.limits.rerolls := by
    rw [← hsetup]
    decide
  have hexplosions : 1 ≤ setup.limits.explosions := by
    rw [← hsetup]
    decide
  have hlimit : ∀ term ∈ expr.terms, ∀ m ∈ Modifier.explosions term.modifiers, m.limit = none := by
    rw [← hexpr]
    decide
  obtain ⟨begun, shares, hbegun, hshares, hcalls, -, hbounds⟩ :=
    evaluate_bounded hrerolls hexplosions hlimit "2d6ro>=1!>=1/0" {}
  refine ⟨expr, setup, after, rfl, rfl, hrun, begun, shares, hbegun, hshares, hcalls, ?_, hbounds⟩
  rw [hrun] at hcalls
  have hsame := hcalls.requests_of_error (by simp)
  rw [hmade, ← Array.toList_inj] at hsame
  have hflat : List.replicate 9 6 = shares.flatten := by simpa using hsame
  rw [← hflat, List.length_replicate]

end Tabletop
