/-
  What a breakdown says of a target check, read back from its words.

  1. **Reading** — the number stands behind the sign of equality, and the verdict behind that: what
     is compared with, how, and whether the check was passed.
  2. **Words** — no part of a breakdown holds the sign, and nothing between the number and the
     verdict is the word that begins it.  So both are read back as they were written.
-/
import Mathlib
import Tabletop.Notation.Piece
import Tabletop.Proofs.Breakdown.Figure

namespace Tabletop.Breakdown

open Numeral Text

/-! ## Reading -/

/-- The words behind the first one that is `word`. -/
def behind (word : List Char) : List (List Char) → Option (List (List Char))
  | [] => none
  | first :: words => if first = word then some words else behind word words

/-- A comparison and the number on its other side. -/
def check? (word : List Char) : Option (Comparison × Int) :=
  (Comparison.ofSymbol? (String.ofList (word.takeWhile isComparisonChar))).bind fun comparison =>
    (read? (word.dropWhile isComparisonChar)).map fun n => (comparison, n)

/-- Whether a check was passed. -/
def passed? (word : List Char) : Option Bool :=
  if word = "PASS".toList then some true else if word = "FAIL".toList then some false else none

/-- The verdict that these words end with. -/
def verdict? (words : List (List Char)) : Option Verdict :=
  match behind "vs".toList words with
  | some [check, ['→'], outcome] =>
    (check? check).bind fun (comparison, n) =>
      (passed? outcome).map fun passed => ⟨comparison, n, passed⟩
  | _ => none

/-- The number that a line shows behind its sign of equality, and the verdict behind the number. -/
def printed? (line : String) : Option (Int × Verdict) :=
  (behind ['='] (line.toList.splitOn ' ')).bind fun words =>
    (words.head?.bind read?).bind fun n => (verdict? words).map fun verdict => (n, verdict)

example : printed? "1d20 (10) = 10 [Hope] vs >=-15 → PASS" = some (10, ⟨.ge, -15, true⟩) := by
  decide +kernel

/-! ## Words -/

/-- Behind a word that did not stand before, the words that follow it are found. -/
theorem behind_append {word : List Char} {before : List (List Char)} (h : word ∉ before)
    (words : List (List Char)) : behind word (before ++ word :: words) = some words := by
  induction before with
  | nil => exact if_pos rfl
  | cons first before ih =>
    rw [List.mem_cons, not_or] at h
    rw [List.cons_append, behind, if_neg (Ne.symm h.1), ih h.2]

/-- A comparison is read back. -/
theorem check?_written (comparison : Comparison) {n : Int} (h : fits n = true) :
    check? (comparison.symbol ++ decimal n).toList = some (comparison, n) := by
  have hsymbol : ∀ c ∈ comparison.symbol.toList, isComparisonChar c = true := by
    cases comparison <;> exact List.all_eq_true.mp rfl
  have hnumber : ∀ c ∈ (decimal n).toList, ¬isComparisonChar c = true := by
    intro c hc hcomparison
    have hface := isFaceChar_of_mem_decimal hc
    simp only [isComparisonChar, Bool.or_eq_true, beq_iff_eq] at hcomparison
    rcases hcomparison with (rfl | rfl) | rfl <;> exact absurd hface (by decide)
  have hnone : (decimal n).toList.takeWhile isComparisonChar = [] ∧
      (decimal n).toList.dropWhile isComparisonChar = (decimal n).toList := by
    cases hdigits : (decimal n).toList with
    | nil => exact ⟨rfl, rfl⟩
    | cons c cs =>
      have hc := hnumber c (hdigits ▸ List.mem_cons_self)
      exact ⟨List.takeWhile_cons_of_neg hc, List.dropWhile_cons_of_neg hc⟩
  rw [check?, String.toList_append, List.takeWhile_append_of_pos hsymbol,
    List.dropWhile_append_of_pos hsymbol, hnone.1, hnone.2, List.append_nil, String.ofList_toList,
    Comparison.ofSymbol?_symbol, read?_decimal h]
  rfl

/-- The word for a verdict is read as that verdict. -/
theorem passed?_written (passed : Bool) : passed? (passWord passed).toList = some passed := by
  cases passed <;> decide

/-- The words of a verdict. -/
def verdictWords (v : Verdict) : List (List Char) :=
  ["vs".toList, (v.comparison.symbol ++ decimal v.threshold).toList, ['→'],
    (passWord v.passed).toList]

/-- A verdict is read back, behind whatever words do not begin one. -/
theorem verdict?_written {before : List (List Char)} (hbefore : "vs".toList ∉ before) {v : Verdict}
    (h : fits v.threshold = true) : verdict? (before ++ verdictWords v) = some v := by
  rw [verdict?, verdictWords, behind_append hbefore]
  simp only [check?_written v.comparison h, passed?_written, Option.bind_some, Option.map_some]

/-! ## The line -/

/-- What stands behind a space and without one is one word more. -/
theorem splitOn_append_word (line : String) {word : String} (h : ' ' ∉ word.toList) :
    (line ++ " " ++ word).toList.splitOn ' ' = line.toList.splitOn ' ' ++ [word.toList] := by
  have htext : (line ++ " " ++ word).toList = line.toList ++ ' ' :: word.toList := by simp
  rw [htext, List.splitOn_append_cons_self, List.splitOn_eq_singleton h]

/-- The words of the remarks stand behind those of the line. -/
theorem splitOn_append_remarks (line : String) {tag : Option String}
    (htag : ∀ t ∈ tag, ' ' ∉ t.toList) (v : Verdict) :
    (line ++ remarks tag (some v)).toList.splitOn ' ' = line.toList.splitOn ' ' ++
      (tag.map fun t => ("[" ++ t ++ "]").toList).toList ++ verdictWords v := by
  have hcheck : ' ' ∉ (v.comparison.symbol ++ decimal v.threshold).toList := by
    rw [String.toList_append, List.mem_append, not_or]
    refine ⟨?_, not_mem_decimal (by decide) _⟩
    cases v.comparison <;> decide
  have houtcome : ' ' ∉ (passWord v.passed).toList := by cases v.passed <;> decide
  have htagged : (line ++ remarks tag none).toList.splitOn ' ' = line.toList.splitOn ' ' ++
      (tag.map fun t => ("[" ++ t ++ "]").toList).toList := by
    cases tag with
    | none => simp [remarks]
    | some t =>
      have hword : ' ' ∉ ("[" ++ t ++ "]").toList := by simp [htag t rfl]
      have htext : line ++ remarks (some t) none = line ++ " " ++ ("[" ++ t ++ "]") :=
        String.toList_injective (by simp [remarks])
      rw [htext, splitOn_append_word line hword]
      rfl
  have htext : line ++ remarks tag (some v) = line ++ remarks tag none ++ " " ++ "vs" ++ " " ++
      (v.comparison.symbol ++ decimal v.threshold) ++ " " ++ "→" ++ " " ++ passWord v.passed := by
    cases tag <;> exact String.toList_injective (by simp [remarks, verdictText])
  rw [htext, splitOn_append_word _ houtcome, splitOn_append_word _ (by decide),
    splitOn_append_word _ hcheck, splitOn_append_word _ (by decide), htagged]
  simp [verdictWords]

/-- The first word of a figure is its number. -/
theorem splitOn_figure (total : Int) (successes : Option Int) :
    ∃ unit, (figure total successes).toList.splitOn ' ' =
        (decimal (successes.getD total)).toList :: unit ∧ "vs".toList ∉ unit := by
  have hspace : ∀ n, ' ' ∉ (decimal n).toList := not_mem_decimal (by decide)
  cases successes with
  | none => exact ⟨[], List.splitOn_eq_singleton (hspace total), List.not_mem_nil⟩
  | some n =>
    have htext : figure total (some n) = decimal n ++ " " ++ "successes" :=
      String.toList_injective (by simp [figure])
    refine ⟨["successes".toList], ?_, by decide⟩
    rw [htext, splitOn_append_word _ (by decide), List.splitOn_eq_singleton (hspace n)]
    rfl

/-- From a breakdown with a verdict, its number and the verdict are read back. -/
theorem printed?_text {dice : List Die} (hkeys : ∀ key ∈ kinds dice, '=' ∉ key.toList)
    {total : Int} {successes : Option Int} (hfigure : fits (successes.getD total) = true)
    {tag : Option String} (htag : ∀ t ∈ tag, t ≠ "" ∧ ' ' ∉ t.toList) {v : Verdict}
    (hthreshold : fits v.threshold = true) :
    printed? (text dice total successes tag (some v)) = some (successes.getD total, v) := by
  obtain ⟨before, hwords, hbefore⟩ := splitOn_text hkeys total successes
  obtain ⟨unit, hunit, hvs⟩ := splitOn_figure total successes
  -- No word between the sign of equality and the verdict begins a verdict.
  have hnumber : "vs".toList ≠ (decimal (successes.getD total)).toList := by
    intro hsame
    exact not_mem_decimal (c := 'v') (by decide) (successes.getD total) (hsame ▸ List.mem_cons_self)
  have htagged : "vs".toList ∉ (tag.map fun t => ("[" ++ t ++ "]").toList).toList := by
    cases tag <;> simp
  have hbetween : "vs".toList ∉ (decimal (successes.getD total)).toList :: unit ++
      (tag.map fun t => ("[" ++ t ++ "]").toList).toList := by
    rw [List.mem_append, List.mem_cons, not_or, not_or]
    exact ⟨⟨hnumber, hvs⟩, htagged⟩
  rw [printed?, text_eq dice total successes (fun t ht => (htag t ht).1),
    splitOn_append_remarks _ (fun t ht => (htag t ht).2), hwords, hunit, List.append_assoc,
    List.append_assoc, List.cons_append, behind_append hbefore, Option.bind_some,
    ← List.append_assoc, verdict?_written hbetween hthreshold]
  simp [read?_decimal hfigure]

end Tabletop.Breakdown
