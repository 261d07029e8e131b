/-
  **Breakdowns of reports**: every die that a report lists is shown once, and the figure is there.

  What a roll leaves is laid: ordinary dice whose marks can stand together, and dice with roles as
  they were drawn, hope and fear in pairs.  The rest is about such dice, however many terms they
  are of.
-/
import Mathlib
import Tabletop.Proofs.Breakdown.Figure
import Tabletop.Proofs.Breakdown.Groups
import Tabletop.Proofs.Evaluation.Stages
import Tabletop.Proofs.Rolling.Pairs

namespace Tabletop

open Breakdown Rolling

variable {setup : Setup}

/-- A roll leaves laid dice, whichever terms they are of. -/
theorem laid_of_roll {expr : Expr} {room : Nat} {before after : Ledger} {tally : Tally}
    (h : expr.roll setup room before = .ok tally after) : ∀ die ∈ tally.dice, die.Laid := by
  obtain ⟨blocks, hblocks, hleft⟩ := blocks_of_roll h
  have hterms := (List.forall₂_and_left _ _).mpr ⟨fun term => term_of_mem_terms, hleft⟩
  rw [← hblocks]
  refine forall_mem_flatten (fun term block hterm => ?_) hterms
  obtain ⟨hterm, room, before, after, tally, hroll, rfl⟩ := hterm
  rcases hterm with ⟨count, sides, modifiers, rfl⟩ | ⟨m, n, modifiers, rfl⟩
  · have hconserved := (diceTerm_conserves count sides modifiers).value hroll
    cases hconserved with
    | dice number size coherent length active =>
      exact fun die hdie => .ordinary (size die hdie).2 (coherent die hdie)
  · have hdealt := (hopeFearTerm_dealt modifiers (named_any m) (named_any n)).value hroll
    exact hdealt.forall_mem fun sides face role hsides hrole =>
      .special hrole rfl hsides ⟨rfl, rfl, rfl, rfl⟩

/-- Hope and fear come in pairs. -/
theorem length_facesOf_of_roll {expr : Expr} {room : Nat} {before after : Ledger} {tally : Tally}
    (h : expr.roll setup room before = .ok tally after) :
    (facesOf Role.hope tally.dice).length = (facesOf Role.fear tally.dice).length := by
  obtain ⟨tallies, hrolled, hdice, -⟩ := tallies_of_roll h
  obtain ⟨hhope, hfear⟩ := facesOf_pairs (told_of_rolledTo hrolled)
  rw [hdice, hhope, hfear, List.length_map, List.length_map]

/-- A tag is a word. -/
theorem tag_word (pair : HopeFear) : pair.tag ≠ "" ∧ '(' ∉ pair.tag.toList := by
  rw [HopeFear.tag]
  split_ifs <;> decide

/-- **Breakdowns.**  Where an evaluation gives a report, its dice are grouped by kinds, each in one
    list of its group, and the breakdown shows as many faces as there are dice, one for each.
    Before the tag and the verdict, what the dice came to stands behind the only sign of equality
    that is a word by itself: the successes where successes are counted, else the total. -/
theorem evaluate_shows {expr : Expr} {expression : String} {before after : Ledger} {report : Report}
    (h : expr.evaluate setup expression before = .ok report after) :
    Grouped report.rolls ∧
      (facesShown report.breakdown).Perm (report.rolls.map shownFace) ∧
      (facesShown report.breakdown).length = report.rolls.length ∧
      ∃ line, report.breakdown = line ++ remarks report.tag report.verdict ∧
        ShowsFigure line (match report.successes with
          | some n => Numeral.decimal n ++ " successes"
          | none => Numeral.decimal report.total) := by
  obtain ⟨tally, hroll, hreport⟩ := evaluate_eq_ok.mp h
  obtain ⟨-, rfl⟩ := ofTally_eq_ok.mp hreport
  have hlaid := laid_of_roll hroll
  have hpairs := length_facesOf_of_roll hroll
  have htag : ∀ t ∈ tally.pair.map (·.tag), t ≠ "" ∧ '(' ∉ t.toList := by
    intro t ht
    obtain ⟨pair, -, rfl⟩ := Option.mem_map.mp ht
    exact tag_word pair
  have hshown : (facesShown (tally.report expression after.used).breakdown).Perm
      (tally.dice.map shownFace) :=
    facesShown_text_perm hlaid hpairs _ _ htag _
  refine ⟨grouped_of_laid hlaid hpairs, hshown, hshown.length_eq.trans (List.length_map _), ?_⟩
  refine ⟨text tally.dice tally.value tally.successes none none,
    text_eq _ _ _ (fun t ht => (htag t ht).1) _, ?_⟩
  have hfigure := showsFigure_text (fun key hkey => (not_mem_kinds hlaid key hkey).2) tally.value
    tally.successes
  exact hfigure

/-- Dice of four kinds, of which two are of more than one term or list: a reroll, an explosion and a
    drop in one group, and two Hope/Fear rolls in another. -/
theorem evaluate_shows_sum :
    ∃ expr report after,
      expr = Expr.target (.binary .add (.binary .add (.binary .add
        (.dice (.number 2) (.faces (.number 6)) [.reroll ⟨.once, .le, .number 1⟩,
          .explosion ⟨.ge, none, none⟩, .selection ⟨.drop, .low, .number 1⟩])
        (.hopeFear (.number 0) (.number 1) [])) (.dice (.number 1) .fate []))
        (.hopeFear (.number 0) (.number 0) [])) .ge (.number 20) ∧
      expr.evaluate ⟨Source.cycle #[1, 4, 6, 3, 7, 3, 4, 1, 8, 8], {}, [], 9⟩
        "2d6r<=1!dl1+dh d1+df+dh t>=20" {} = .ok report after ∧
      report.breakdown = "2d6 (4, 6!) drop(3) reroll(1) + 2d12: Hope(7) + Fear(3) + " ++
        "2d12: Hope(8) + Fear(8) + 1d6 disadvantage (4) → -4 + 1dF (-) = 31 [Critical] " ++
        "vs >=20 → PASS" ∧
      Grouped report.rolls ∧
      (facesShown report.breakdown).Perm (report.rolls.map shownFace) ∧
      (facesShown report.breakdown).length = report.rolls.length ∧
      ∃ line, report.breakdown = line ++ remarks report.tag report.verdict ∧
        ShowsFigure line (match report.successes with
          | some n => Numeral.decimal n ++ " successes"
          | none => Numeral.decimal report.total) := by
  generalize hexpr : Expr.target (.binary .add (.binary .add (.binary .add
    (.dice (.number 2) (.faces (.number 6)) [.reroll ⟨.once, .le, .number 1⟩,
      .explosion ⟨.ge, none, none⟩, .selection ⟨.drop, .low, .number 1⟩])
    (.hopeFear (.number 0) (.number 1) [])) (.dice (.number 1) .fate []))
    (.hopeFear (.number 0) (.number 0) [])) .ge (.number 20) = expr
  obtain ⟨tally, after, hroll, hfigures, htext⟩ : ∃ tally after,
      expr.roll ⟨Source.cycle #[1, 4, 6, 3, 7, 3, 4, 1, 8, 8], {}, [], 9⟩ 9 {} =
        .ok tally after ∧
      (∀ n ∈ tally.figures, n.natAbs < Nat.pow 10 2) ∧
      text tally.dice tally.value tally.successes (tally.pair.map (·.tag)) tally.verdict =
        "2d6 (4, 6!) drop(3) reroll(1) + 2d12: Hope(7) + Fear(3) + " ++
        "2d12: Hope(8) + Fear(8) + 1d6 disadvantage (4) → -4 + 1dF (-) = 31 [Critical] " ++
        "vs >=20 → PASS" := by
    rw [← hexpr]
    refine ⟨
      { value := 31
        dice := [{ sides := .faces 6, face := 1, rerolled := true },
          { sides := .faces 6, face := 4 }, { sides := .faces 6, face := 6, exploded := true },
          { sides := .faces 6, face := 3, dropped := true },
          { sides := .faces 12, face := 7, role := some Role.hope },
          { sides := .faces 12, face := 3, role := some Role.fear },
          { sides := .faces 6, face := 4, role := some Role.disadvantage },
          { sides := .fate, face := -1 },
          { sides := .faces 12, face := 8, role := some Role.hope },
          { sides := .faces 12, face := 8, role := some Role.fear }]
        pair := some ⟨8, 8⟩
        verdict := some ⟨.ge, 20, true⟩ },
      { requests := #[6, 6, 6, 6, 12, 12, 6, 3, 12, 12]
        events := #[.resolved 2 (.faces 6) 3 [1, 4, 6, 3] 10, .resolved 1 .fate 0 [-1] (-1)] },
      by cbv, by decide, by decide +kernel⟩
  obtain ⟨_, hreport⟩ := exists_report hfigures (by decide) "2d6r<=1!dl1+dh d1+df+dh t>=20"
    after.used
  obtain ⟨-, rfl⟩ := ofTally_eq_ok.mp hreport
  have hevaluate : expr.evaluate ⟨Source.cycle #[1, 4, 6, 3, 7, 3, 4, 1, 8, 8], {}, [], 9⟩
      "2d6r<=1!dl1+dh d1+df+dh t>=20" {} =
        .ok (tally.report "2d6r<=1!dl1+dh d1+df+dh t>=20" after.used) after :=
    evaluate_eq_ok.mpr ⟨tally, hroll, hreport⟩
  exact ⟨expr, _, after, rfl, hevaluate, htext, evaluate_shows hevaluate⟩

end Tabletop
