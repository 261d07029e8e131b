/-
  A target clause behind a text: it looks at the total and changes nothing else.

  1. **Pieces** — the clause begins behind a space with a letter that no token before it looks for,
     and without a letter that an alias begins with.  So what stands before it is expanded and cut
     as it is by itself, stray characters and names included, and the clause is three tokens more.
  2. **Reading** — the three tokens make a target check of what the others derive, for no modifier
     begins with the letter.
  3. **Rolling** — the check comes when the dice lie there.  It takes one level of nesting, so that
     the whole may be too long where the text by itself is not.
-/
import Mathlib
import Tabletop.Proofs.Evaluation.Composition
import Tabletop.Proofs.Notation.Blanks
import Tabletop.Proofs.Rendering.RoundTrip
import Tabletop.Proofs.Rolling.Pairs

namespace Tabletop

open Grammar Rolling Text

/-- A text with a target clause behind it. -/
def targeted (expression : String) (comparison : Comparison) (threshold : Nat) : String :=
  expression ++ " t" ++ comparison.symbol ++ Numeral.decimal threshold

/-! ## Pieces -/

/-- A clause is written without the letters that aliases begin with. -/
theorem not_mem_clause (comparison : Comparison) {threshold : Nat}
    (h : (Operand.number threshold).Renderable) {letter : Char} (hletter : letter ∈ ['a', 'd']) :
    letter ∉ lowerAscii ("t" ++ comparison.render (.number threshold)) := by
  have hwritten : ∀ c ∈ ("t" ++ comparison.render (.number threshold)).toList,
      (c == 't' || isComparisonChar c || isDigit c) = true := by
    simp only [Comparison.render, String.toList_append, List.forall_mem_append,
      toList_render_number]
    refine ⟨by simp, ?_, fun c hc => ?_⟩
    · cases comparison <;> exact List.all_eq_true.mp rfl
    · rw [Numeral.isDigit_of_mem_toDigits hc, Bool.or_true]
  have hascii := (cuts_clause false comparison h).ascii
  intro hmem
  obtain ⟨c, hc, rfl⟩ := List.mem_map.mp hmem
  exact forall_ascii (P := fun c => (c == 't' || isComparisonChar c || isDigit c) = true →
    c.toLower ∉ ['a', 'd']) (by decide) (hascii c hc) (hwritten c hc) hletter

/-- The pieces of a text with a clause behind it: those of the text, and three tokens. -/
theorem pieces_targeted (expression : String) (comparison : Comparison) {threshold : Nat}
    (h : threshold < Nat.pow 10 numberLengthLimit) :
    ∃ ts, pieces (withoutAliases (targeted expression comparison threshold)).toList =
        pieces (withoutAliases expression).toList ++ ts.map Piece.token ∧
      (∀ t ∈ ts, t.WithinLimits) ∧ OneClause comparison (.number threshold) ts := by
  have hrenderable : (Operand.number threshold).Renderable :=
    ⟨Int.natCast_nonneg _, by exact_mod_cast h⟩
  have htext : (targeted expression comparison threshold).toList =
      expression.toList ++ ' ' :: ("t" ++ comparison.render (.number threshold)).toList := by
    simp [targeted, Comparison.render, Operand.render]
  have hcuts := fun after => cuts_clause after comparison hrenderable
  have hspace : Apart ' ' := ⟨small_space, by decide, by decide⟩
  rw [pieces_withoutAliases, pieces_withoutAliases, piecesOf, piecesOf, htext, lower_append hspace,
    lower_of_ascii (hcuts false).ascii, ← lowerAscii,
    expandAll_append_space _ (not_mem_clause comparison hrenderable (by simp))
      (not_mem_clause comparison hrenderable (by simp)),
    glyphsFrom_append_text, glyphsFrom_of_blank (by decide)]
  have hhead : lowerAscii ("t" ++ comparison.render (.number threshold)) =
      't' :: lowerAscii (comparison.render (.number threshold)) := by
    simp [lowerAscii]
  have hglyphs : glyphsFrom true (lowerAscii ("t" ++ comparison.render (.number threshold))) =
      ⟨'t', true⟩ :: glyphsFrom false (lowerAscii (comparison.render (.number threshold))) := by
    rw [hhead, glyphsFrom_of_not_blank (by decide)]
  -- The letter of the clause carries no token on, so the text in front is cut by itself.
  have hcloses : Glyph.Closes ⟨'t', true⟩ := ⟨by decide, by decide, by decide⟩
  obtain ⟨after, hpieces⟩ := piecesFrom_append hcloses false 0
    (glyphsFrom false (expandAll (lower expression.toList)))
    (glyphsFrom false (lowerAscii (comparison.render (.number threshold))))
  obtain ⟨ts, hts, hwithin, hclause⟩ := (hcuts after).whole (by simp [NoDigit]) true
    (0 + (glyphsFrom false (expandAll (lower expression.toList))).length)
  refine ⟨ts, ?_, hwithin, hclause⟩
  rw [hglyphs] at hts ⊢
  rw [hpieces, hts]

/-! ## Reading -/

/-- A text with a clause behind it is read as a target check of what it is read as by itself. -/
theorem exprOf_targeted {settings : Settings} {expression : String} {expr : Expr}
    (huntargeted : Untargeted expression) (hexpr : settings.exprOf expression = .ok expr)
    (comparison : Comparison) {threshold : Nat} (h : threshold < Nat.pow 10 numberLengthLimit) :
    settings.exprOf (targeted expression comparison threshold) =
      .ok (.target expr comparison (.number threshold)) := by
  rw [exprOf_eq_ok] at hexpr ⊢
  obtain ⟨hstrays, hderives⟩ := hexpr
  obtain ⟨ts, hpieces, hwithin, hclause⟩ := pieces_targeted expression comparison h
  have hinner := derives_of_untargeted huntargeted hderives.sentence
  have htokens : cutTokens (withoutAliases (targeted expression comparison threshold)).toList =
      cutTokens (withoutAliases expression).toList ++ ts := by
    rw [cutTokens, hpieces, List.filterMap_append, ← cutTokens, filterMap_token?_token]
  constructor
  · intro hstrict
    rw [strays, hpieces, List.filterMap_append, ← strays, hstrays hstrict,
      filterMap_stray?_token, List.append_nil]
  · obtain ⟨hsentence, hnest⟩ := hclause.sentence hinner hderives.nesting
    rw [htokens]
    exact .of_withinLimits hsentence
      (List.forall_mem_append.mpr ⟨hderives.withinLimits, hwithin⟩) hnest

/-! ## Rolling -/

section Rolling

variable {setup : Setup}

/-- Only a target check makes a verdict, and it is made behind all other phrases. -/
theorem verdict_of_derives {p : Phrase} {ts : List Token} {expr : Expr} (h : Derives p ts expr) :
    ∀ {room : Nat} {before after : Ledger} {tally : Tally},
      expr.roll setup room before = .ok tally after → tally.verdict = none := by
  -- Of two sides without a verdict none is made.
  have hbinary : ∀ {op : Operator} {l r : Expr},
      (∀ {room : Nat} {before after : Ledger} {tally : Tally},
        l.roll setup room before = .ok tally after → tally.verdict = none) →
      (∀ {room : Nat} {before after : Ledger} {tally : Tally},
        r.roll setup room before = .ok tally after → tally.verdict = none) →
      ∀ {room : Nat} {before after : Ledger} {tally : Tally},
        (Expr.binary op l r).roll setup room before = .ok tally after →
          tally.verdict = none := by
    intro op l r hl hr room before after tally h
    obtain ⟨less, left, mid, right, value, hleft, hright, -, rfl⟩ := of_roll_binary h
    show right.verdict.or left.verdict = none
    rw [hr hright, hl hleft]
    rfl
  induction h with
  | number operand =>
    intro room before after tally h
    cases h
    rfl
  | named operand =>
    intro room before after tally h
    obtain ⟨n, mid, -, hrest⟩ := Run.bind_eq_ok.mp h
    cases hrest
    rfl
  | parens opens closes inner ih => exact ih
  | dice term =>
    intro room before after tally h
    cases term with
    | hopeFear kind pools tail =>
      obtain ⟨-, -, -, -, rfl⟩ := (hopeFearTerm_dealt _ (named_any _) (named_any _)).value h
      rfl
    | sized head kind size tail => exact (diceTerm_bare h).2
    | fate head kind tail => exact (diceTerm_bare h).2
  | ofFactor only ih => exact ih
  | product left listed head right ihl ihr => exact hbinary ihl ihr
  | ofProduct only ih => exact ih
  | sum left listed head right ihl ihr => exact hbinary ihl ihr

/-- A target check of a roll that went well holds its value against the threshold, or is too
    deep. -/
theorem roll_target_of_roll {expr : Expr} {room : Nat} {before after : Ledger}
    {tally : Tally} (h : expr.roll setup room before = .ok tally after) (comparison : Comparison)
    (n : Int) :
    TooLong ((Expr.target expr comparison (.number n)).roll setup room before) ∨
      (Expr.target expr comparison (.number n)).roll setup room before =
        .ok (tally.check comparison n) after := by
  cases room with
  | zero => exact Or.inl ⟨_, rfl⟩
  | succ room =>
    rcases roll_of_less_room h with hless | hlong
    · exact Or.inr (Run.bind_eq_ok.mpr ⟨tally, after, hless, rfl⟩)
    · exact Or.inl (tooLong_bind hlong)

end Rolling

/-! ## Reports -/

/-- A check adds its threshold to the figures that are written out. -/
theorem figures_check {tally : Tally} (h : tally.verdict = none) (comparison : Comparison)
    (n : Int) : (tally.check comparison n).figures = tally.figures ++ [n] := by
  simp [Tally.figures, Tally.check, Breakdown.numbers, h]

/-- A verdict is written behind the rest. -/
theorem text_of_verdict (dice : List Die) (total : Int) (successes : Option Int)
    (tag : Option String) (verdict : Verdict) :
    Breakdown.text dice total successes tag (some verdict) =
      Breakdown.text dice total successes tag none ++ Breakdown.verdictText verdict := by
  show _ ++ Breakdown.verdictText verdict = _ ++ "" ++ Breakdown.verdictText verdict
  rw [String.append_empty]

/-- The report of a check is that of the tally with the verdict, which is written behind it. -/
theorem report_check {tally : Tally} (h : tally.verdict = none) (comparison : Comparison) (n : Int)
    (expression expression' : String) (used : Bindings Int) :
    (tally.check comparison n).report expression' used =
      { tally.report expression used with
        expression := expression'
        verdict := some ⟨comparison, n, comparison.holds tally.value n⟩
        breakdown := (tally.report expression used).breakdown ++
          Breakdown.verdictText ⟨comparison, n, comparison.holds tally.value n⟩ } := by
  rw [Tally.report, Tally.report, h, ← text_of_verdict]
  rfl

/-- **Target clauses.**  Let a text without a target clause be evaluated.  If it is not too long
    with a clause behind it, then that is evaluated with the same draws, and the report is the same
    but for the verdict, on the total, and the breakdown, behind which the verdict is written. -/
theorem evaluate_targeted {settings : Settings} {table : Bindings Int} {source : Source}
    {depth : Nat} {expression : String} {before after : Ledger} {report : Report}
    (huntargeted : Untargeted expression)
    (h : evaluate settings table source depth expression before = .ok report after)
    (hok : report.error = none) (comparison : Comparison) {threshold : Nat}
    (hthreshold : threshold < Nat.pow 10 100)
    (hroom : ∀ after', evaluate settings table source depth
      (targeted expression comparison threshold) before ≠
        .ok (Report.failure (targeted expression comparison threshold) Hazard.tooLong.message)
          after') :
    ∃ after', evaluate settings table source depth (targeted expression comparison threshold)
        before =
        .ok { report with
          expression := targeted expression comparison threshold
          verdict := some ⟨comparison, threshold, comparison.holds report.total threshold⟩
          breakdown := report.breakdown ++ (" vs " ++ comparison.symbol ++
            Numeral.decimal threshold ++ " → " ++
              if comparison.holds report.total threshold then "PASS" else "FAIL") } after' ∧
      after'.requests = after.requests := by
  obtain ⟨expr, start, tally, hexpr, hused, hrequests, hroll, hfits, rfl⟩ := roll_of_evaluate h hok
  have hread := exprOf_targeted huntargeted hexpr comparison hthreshold
  have hverdict : tally.verdict = none :=
    verdict_of_derives (derives_of_untargeted huntargeted (exprOf_eq_ok.mp hexpr).2.sentence) hroll
  obtain ⟨start', hused', hrequests', hevaluate⟩ :=
    evaluate_of_exprOf hread table source depth before
  obtain ⟨after', pairs, hroll', hlast, -, hlooked, hlooked'⟩ :=
    roll_elsewhere hroll (hrequests'.trans hrequests.symm)
  -- With the clause the expression is one level deeper, and may be too long for that.
  rcases roll_target_of_roll hroll' comparison threshold with hlong | hchecked
  · obtain ⟨last, hlong⟩ := hlong
    rw [hevaluate _ hlong, orFailure_hazard rfl] at hroom
    exact absurd rfl (hroom _)
  · have hfigures : (tally.check comparison threshold).figures.all Numeral.fits = true := by
      have hshort : (threshold : Int).natAbs < Nat.pow 10 100 := hthreshold
      rw [figures_check hverdict, List.all_append, hfits, List.all_cons,
        Numeral.fits_of_lt hshort (by decide)]
      rfl
    refine ⟨after', ?_, hlast⟩
    have hsame : after'.used = after.used := by rw [hlooked, hlooked', hused, hused']
    rw [hevaluate _ hchecked, orFailure_tally hfigures, report_check hverdict _ _ expression, hsame]
    rfl

set_option maxRecDepth 1024 in
/-- A stray letter at the end of the text is passed over as before, and the alias is expanded; the
    better of two dice is as much as the clause asks for. -/
theorem evaluate_targeted_alias :
    ∃ report after after', evaluate {} [] (Source.cycle #[7, 15]) 9 "Adv t" {} = .ok report after ∧
      report.total = 15 ∧ targeted "Adv t" .ge 15 = "Adv t t>=15" ∧
      evaluate {} [] (Source.cycle #[7, 15]) 9 (targeted "Adv t" .ge 15) {} =
        .ok { report with
          expression := targeted "Adv t" .ge 15
          verdict := some ⟨.ge, 15, Comparison.ge.holds report.total 15⟩
          breakdown := report.breakdown ++ (" vs " ++ Comparison.ge.symbol ++
            Numeral.decimal (15 : Nat) ++ " → " ++
              if Comparison.ge.holds report.total 15 then "PASS" else "FAIL") } after' ∧
      after'.requests = after.requests := by
  have huntargeted : Untargeted "Adv t" := by
    have htokens : tokens (withoutAliases "Adv t").toList = [⟨.number, "2", 0⟩, ⟨.dice, "d", 1⟩,
        ⟨.number, "20", 2⟩, ⟨.modifier, "kh", 4⟩, ⟨.number, "1", 6⟩, ⟨.finish, "", 8⟩] := by
      cbv
    simp [Untargeted, htokens]
  have hexpr : Settings.exprOf {} "Adv t" =
      .ok (.dice (.number 2) (.faces (.number 20)) [.selection ⟨.keep, .high, .number 1⟩]) := by
    cbv
  obtain ⟨tally, htally⟩ : ∃ t : Tally, t =
      { value := 15
        dice := [{ sides := .faces 20, face := 7, dropped := true },
          { sides := .faces 20, face := 15 }] } := ⟨_, rfl⟩
  obtain ⟨last, hlast⟩ : ∃ l : Ledger, l =
      { requests := #[20, 20], events := #[.resolved 2 (.faces 20) 1 [7, 15] 15] } := ⟨_, rfl⟩
  have hroll : (Expr.dice (.number 2) (.faces (.number 20))
      [.selection ⟨.keep, .high, .number 1⟩]).roll
        (Settings.setup {} [] (Source.cycle #[7, 15]) 9) 9 {} = .ok tally last := by
    rw [htally, hlast]
    cbv
  have hfigures : tally.figures = [7, 15, 20, 20, 15] := by
    rw [htally]
    cbv
  have hshort : ∀ n ∈ tally.figures, n.natAbs < Nat.pow 10 2 := by
    rw [hfigures]
    decide
  obtain ⟨after, hplain, -⟩ := evaluate_of_roll hexpr hroll rfl rfl (figures_fit hshort (by decide))
  have hroom : ∀ after', evaluate {} [] (Source.cycle #[7, 15]) 9 (targeted "Adv t" .ge 15) {} ≠
      .ok (Report.failure (targeted "Adv t" .ge 15) Hazard.tooLong.message) after' := by
    have hchecked := exprOf_targeted huntargeted hexpr .ge (show 15 < Nat.pow 10 100 by decide)
    have hroll' : (Expr.target (.dice (.number 2) (.faces (.number 20))
        [.selection ⟨.keep, .high, .number 1⟩]) .ge (.number (15 : Nat))).roll
          (Settings.setup {} [] (Source.cycle #[7, 15]) 9) 9 {} =
        .ok (tally.check .ge 15) last := by
      rw [htally, hlast]
      cbv
    have hfits : (tally.check .ge 15).figures.all Numeral.fits = true := by
      have hverdict : tally.verdict = none := by rw [htally]
      have hall : ∀ n ∈ (tally.check .ge 15).figures, n.natAbs < Nat.pow 10 2 := by
        rw [figures_check hverdict, hfigures]
        decide
      exact figures_fit hall (by decide)
    obtain ⟨whole, hwhole, -⟩ := evaluate_of_roll hchecked hroll' rfl rfl hfits
    intro after' hlong
    have herror := congrArg Report.error (EStateM.Result.ok.inj (hwhole.symm.trans hlong)).1
    cases herror
  obtain ⟨after', hwhole, hsame⟩ :=
    evaluate_targeted huntargeted hplain rfl .ge (show 15 < Nat.pow 10 100 by decide) hroom
  exact ⟨_, after, after', hplain, by rw [htally]; rfl, by decide, hwhole, hsame⟩

end Tabletop
