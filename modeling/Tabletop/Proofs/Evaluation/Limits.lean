/-
  **Limits matter only where they are felt.**

  Under settings that allow at least as much a text is read as the same expression, and its roll
  goes the same way as long as no event has told of a limit.  What reading notes may differ, but a
  roll does not look at that.
-/
import Mathlib
import Tabletop.Proofs.Evaluation.Stages
import Tabletop.Proofs.Rolling.Sequence
import Tabletop.Proofs.Rolling.Widening

namespace Tabletop

open Rolling

/-- The wide settings read as strictly, and allow at least as much. -/
structure Settings.Wider (settings wide : Settings) : Prop where
  strict : wide.strict = settings.strict
  depth : settings.maxDepth ≤ wide.maxDepth
  limits : settings.limits ≤ wide.limits

/-- The events that were noted since a ledger was as it was before. -/
def Ledger.notedSince (after before : Ledger) : List Event :=
  after.events.toList.drop before.events.size

/-- What nests within a limit nests within a larger one. -/
theorem DerivesWithin.mono {limit wide : Int} {ts : List Token} {expr : Expr}
    (h : DerivesWithin limit ts expr) (hle : limit ≤ wide) : DerivesWithin wide ts expr :=
  ⟨h.sentence, h.numbers, h.names, h.nesting.mono (Int.toNat_le_toNat hle)⟩

/-- A text that was read is read as the same expression under wider settings. -/
theorem exprOf_wider {settings wide : Settings} (hwider : settings.Wider wide)
    {expression : String} {expr : Expr} (h : settings.exprOf expression = .ok expr) :
    wide.exprOf expression = .ok expr := by
  obtain ⟨hstrays, hderives⟩ := exprOf_eq_ok.mp h
  refine exprOf_eq_ok.mpr ⟨fun hstrict => hstrays ?_, hderives.mono hwider.depth⟩
  rw [← hwider.strict]
  exact hstrict

/-- An expression that was evaluated without an event that tells of a limit is evaluated to the same
    report under wider limits, from whichever ledger with the same requests. -/
theorem Expr.evaluate_under {expr : Expr} {setup : Setup} {wide : Limits}
    (hle : setup.limits ≤ wide) {expression : String} {before after start : Ledger}
    {report : Report} (h : expr.evaluate setup expression before = .ok report after)
    (hstart : start.requests = before.requests) :
    ∃ noted : List Event, after.events = before.events ++ noted.toArray ∧
      ((∀ event ∈ noted, event.tellsLimit = false) →
        ∃ after', expr.evaluate (setup.under wide) expression start = .ok report after' ∧
          after'.requests = after.requests) := by
  obtain ⟨tally, hroll, hreport⟩ := evaluate_eq_ok.mp h
  obtain ⟨noted, hnoted, hwide⟩ := roll_widens hle expr setup.depth _ _ _ hroll
  refine ⟨noted, hnoted, fun hquiet => ?_⟩
  have hstart' : ({ start with used := [] } : Ledger).requests =
      ({ before with used := [] } : Ledger).requests := hstart
  obtain ⟨after', pairs, hroll', hrequests, -, hused, hused'⟩ :=
    roll_elsewhere (hwide hquiet) hstart'
  -- Both rolls look up the same variables, and neither has looked up any before.
  have hsame : after'.used = after.used := by rw [hused', hused]
  exact ⟨after', evaluate_eq_ok.mpr ⟨tally, hroll', hsame ▸ hreport⟩, hrequests⟩

/-- **Limits that are not felt do not matter.**  Where an evaluation went well and noted no event
    that tells of a limit, it comes to the same report under all wider settings, and after the same
    requests. -/
theorem evaluate_widens {settings wide : Settings} {table : Bindings Int} {source : Source}
    {depth : Nat} {expression : String} {before after : Ledger} {report : Report}
    (hwider : settings.Wider wide)
    (h : evaluate settings table source depth expression before = .ok report after)
    (hok : report.error = none)
    (hquiet : ∀ event ∈ after.notedSince before, event.tellsLimit = false) :
    ∃ after', evaluate wide table source depth expression before = .ok report after' ∧
      after'.requests = after.requests := by
  rw [evaluate_stages, orFailure_eq_ok hok] at h
  cases hexpr : settings.exprOf expression with
  | error fault =>
    rw [hexpr] at h
    cases h
  | ok expr =>
    rw [hexpr] at h
    -- Reading may note other events under the wide settings, but makes no request either.
    have hstart : (before.noting (wide.eventsOf expression)).requests =
        (before.noting (settings.eventsOf expression)).requests := by
      rw [requests_noting, requests_noting]
    obtain ⟨noted, hnoted, hwide⟩ := expr.evaluate_under hwider.limits h hstart
    have hsince : after.notedSince before = settings.eventsOf expression ++ noted := by
      rw [Ledger.notedSince, hnoted, Ledger.noting]
      simp
    rw [hsince, List.forall_mem_append] at hquiet
    obtain ⟨after', hevaluate, hrequests⟩ := hwide hquiet.2
    refine ⟨after', ?_, hrequests⟩
    rw [evaluate_stages, orFailure_eq_ok hok, exprOf_wider hwider hexpr]
    exact hevaluate

/-- Every limit is reached and none is felt: parentheses as deep, dice as many and as large as
    allowed, and the one spare reroll is spent on a 2 that becomes 4. -/
theorem evaluate_widens_reroll :
    ∃ settings report after,
      settings = Settings.mk { explosions := 2, rerolls := 1, dice := 2, sides := 6 } 1 true false ∧
      evaluate settings [] (Source.cycle #[1, 6, 2, 4, 5]) 9 "(2d6ro<=2!)" {} = .ok report after ∧
      report.total = 15 ∧ after.requests = #[6, 6, 6, 6, 6] ∧
      ∃ after', evaluate { strict := true } [] (Source.cycle #[1, 6, 2, 4, 5]) 9 "(2d6ro<=2!)" {} =
          .ok report after' ∧ after'.requests = after.requests := by
  generalize hsettings :
    Settings.mk { explosions := 2, rerolls := 1, dice := 2, sides := 6 } 1 true false = settings
  have hexpr : settings.exprOf "(2d6ro<=2!)" = .ok (.dice (.number 2) (.faces (.number 6))
      [.reroll ⟨.continuous, .le, .number 2⟩, .explosion ⟨.ge, none, none⟩]) := by
    rw [← hsettings]
    cbv
  have hevents : settings.eventsOf "(2d6ro<=2!)" =
      [.retried 0 ⟨.unexpected, ⟨.openParen, "(", 0⟩⟩] := by
    rw [← hsettings]
    cbv
  obtain ⟨tally, hroll, hfigures, htotal⟩ : ∃ tally,
      (Expr.dice (.number 2) (.faces (.number 6))
        [.reroll ⟨.continuous, .le, .number 2⟩, .explosion ⟨.ge, none, none⟩]).roll
          (settings.setup [] (Source.cycle #[1, 6, 2, 4, 5]) 9) 9
          { events := #[.retried 0 ⟨.unexpected, ⟨.openParen, "(", 0⟩⟩] } =
        .ok tally
          { requests := #[6, 6, 6, 6, 6]
            events := #[.retried 0 ⟨.unexpected, ⟨.openParen, "(", 0⟩⟩,
              .resolved 2 (.faces 6) 2 [1, 6, 2, 4, 5] 15] } ∧
      (∀ n ∈ tally.figures, n.natAbs < Nat.pow 10 2) ∧ tally.value = 15 := by
    rw [← hsettings]
    exact ⟨
      { value := 15
        dice := [{ sides := .faces 6, face := 1, rerolled := true },
          { sides := .faces 6, face := 6, exploded := true },
          { sides := .faces 6, face := 2, rerolled := true },
          { sides := .faces 6, face := 4 }, { sides := .faces 6, face := 5 }] },
      by cbv, by decide, rfl⟩
  obtain ⟨report, hreport⟩ := exists_report hfigures (by decide) "(2d6ro<=2!)" []
  have hok := (of_ofTally_eq_ok hreport).2.2.2
  have hsame := (ofTally_eq_ok.mp hreport).2
  have h : evaluate settings [] (Source.cycle #[1, 6, 2, 4, 5]) 9 "(2d6ro<=2!)" {} = .ok report
      { requests := #[6, 6, 6, 6, 6]
        events := #[.retried 0 ⟨.unexpected, ⟨.openParen, "(", 0⟩⟩,
          .resolved 2 (.faces 6) 2 [1, 6, 2, 4, 5] 15] } := by
    rw [evaluate_stages, orFailure_eq_ok hok, hexpr, hevents]
    exact evaluate_eq_ok.mpr ⟨tally, hroll, hreport⟩
  have hwider : settings.Wider { strict := true } := by
    rw [← hsettings]
    exact ⟨rfl, by decide, ⟨by decide, by decide, by decide, by decide⟩⟩
  refine ⟨settings, report, _, rfl, h, ?_, rfl, evaluate_widens hwider h hok (by decide)⟩
  rw [← hsame]
  exact htotal

end Tabletop
