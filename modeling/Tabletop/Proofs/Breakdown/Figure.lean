/-
  The figure of a breakdown, read back from its words.

  The sign of equality is a word by itself just once: no part of a breakdown holds the sign, and the
  figure does not either.  So what the dice came to is what stands behind that word.
-/
import Tabletop.Proofs.Breakdown.Faces

namespace Tabletop.Breakdown

open Numeral

/-- One word of the line is the sign of equality, and behind it stands the figure. -/
def ShowsFigure (line figure : String) : Prop :=
  ∃ before after : List (List Char),
    line.toList.splitOn ' ' = before ++ ['='] :: after ∧ ['='] ∉ before ∧ ['='] ∉ after ∧
      [' '].intercalate after = figure.toList

/-! ## Words -/

/-- A character of words in a row stands in a word or, if there are two words or more, in what
    separates them. -/
theorem mem_intercalate {c : Char} {between : List Char} {words : List (List Char)} :
    c ∈ between.intercalate words ↔
      (∃ word ∈ words, c ∈ word) ∨ 1 < words.length ∧ c ∈ between := by
  induction words with
  | nil => simp
  | cons word words ih =>
    cases words with
    | nil => simp
    | cons next words =>
      rw [List.intercalate_cons_cons, List.mem_append, List.mem_append, ih]
      simp only [List.exists_mem_cons_iff, List.length_cons]
      grind

/-- What a word is written with stands in the text. -/
theorem mem_of_mem_splitOn {text word : List Char} (hword : word ∈ text.splitOn ' ') {c : Char}
    (hc : c ∈ word) : c ∈ text := by
  have hmem : c ∈ [' '].intercalate (text.splitOn ' ') :=
    mem_intercalate.mpr (Or.inl ⟨word, hword, hc⟩)
  rwa [List.intercalate_splitOn] at hmem

/-- A text without a character has no word that is the character. -/
theorem not_mem_splitOn {text : List Char} {c : Char} (h : c ∉ text) : [c] ∉ text.splitOn ' ' :=
  fun hword => h (mem_of_mem_splitOn hword (List.mem_singleton_self c))

/-! ## Parts -/

/-- A character that stands neither in the texts nor between them does not stand in their row. -/
theorem not_mem_intercalate {c : Char} {between : String} (hbetween : c ∉ between.toList)
    {texts : List String} (h : ∀ text ∈ texts, c ∉ text.toList) :
    c ∉ (between.intercalate texts).toList := by
  rw [String.toList_intercalate, mem_intercalate]
  rintro (⟨_, hmem, hc⟩ | ⟨-, hc⟩)
  · obtain ⟨text, htext, rfl⟩ := List.mem_map.mp hmem
    exact h text htext hc
  · exact hbetween hc

/-- No equals sign stands in a list of faces that have none. -/
theorem not_mem_listed {word : String} (hword : '=' ∉ word.toList) {faces : List String}
    (h : ∀ face ∈ faces, '=' ∉ face.toList) : '=' ∉ (listed word faces).toList := by
  have hfaces : '=' ∉ (", ".intercalate faces).toList := not_mem_intercalate (by decide) h
  rw [listed]
  split
  · simp
  · simp only [String.toList_append, List.mem_append, not_or]
    exact ⟨⟨⟨hword, by decide⟩, hfaces⟩, by decide⟩

/-- No part of the dice of a kind holds the sign of equality, if the kind does not. -/
theorem not_mem_partsOf {key : String} (hkey : '=' ∉ key.toList) (dice : List Die) :
    ∀ part ∈ partsOf key dice, '=' ∉ part.toList := by
  have hnumber := not_mem_decimal (c := '=') (by decide)
  have hcount : ∀ n : Nat, '=' ∉ (decimalNat n).toList := fun n => hnumber n
  intro part hpart
  rw [partsOf] at hpart
  split_ifs at hpart
  · rw [pairParts, ← List.map_uncurry_zip_eq_zipWith] at hpart
    obtain ⟨pair, -, rfl⟩ := List.mem_map.mp hpart
    simp [Function.uncurry, hnumber]
  · rw [List.mem_singleton.mp hpart, poolPart]
    have hfaces : '=' ∉ (", ".intercalate (dice.map fun die => decimal die.face)).toList :=
      not_mem_intercalate (by decide) (List.forall_mem_map.mpr fun die _ => hnumber die.face)
    split <;> simp [hnumber, hcount, hkey, hfaces, -String.toList_intercalate]
  · rw [List.mem_singleton.mp hpart, ordinaryPart]
    have hmarked : ∀ dice : List Die, ∀ text ∈ dice.map markedFace, '=' ∉ text.toList :=
      fun dice => List.forall_mem_map.mpr fun die _ hc => by cases isFaceChar_of_mem_markedFace hc
    have hplain : ∀ dice : List Die, ∀ text ∈ dice.map face, '=' ∉ text.toList :=
      fun dice => List.forall_mem_map.mpr fun die _ hc => by cases isFaceChar_of_mem_face hc
    simp only [String.toList_append, List.mem_append, not_or]
    exact ⟨⟨⟨⟨hcount _, hkey⟩, not_mem_listed (by decide) (hmarked _)⟩,
      not_mem_listed (by decide) (hplain _)⟩, not_mem_listed (by decide) (hplain _)⟩

/-! ## The line -/

/-- Before its remarks, a breakdown has the words of its parts, the sign of equality, and the words
    of its figure. -/
theorem splitOn_text {dice : List Die} (hkeys : ∀ key ∈ kinds dice, '=' ∉ key.toList)
    (total : Int) (successes : Option Int) :
    ∃ before, (text dice total successes none none).toList.splitOn ' ' =
        before ++ ['='] :: (figure total successes).toList.splitOn ' ' ∧ ['='] ∉ before := by
  have hparts : '=' ∉ (" + ".intercalate (parts dice)).toList := by
    refine not_mem_intercalate (by decide) fun part hpart => ?_
    obtain ⟨key, hkey, hmem⟩ := List.mem_flatMap.mp hpart
    exact not_mem_partsOf (hkeys key hkey) _ part hmem
  have hbehind : ("= " ++ figure total successes).toList.splitOn ' ' =
      ['='] :: (figure total successes).toList.splitOn ' ' := by
    have htext : ("= " ++ figure total successes).toList =
        ['='] ++ ' ' :: (figure total successes).toList := by simp
    rw [htext, List.splitOn_append_cons_self_of_not_mem (by simp)]
  simp only [text, Option.filter_none, String.append_empty]
  split
  · exact ⟨[], by rw [String.empty_append, hbehind, List.nil_append], List.not_mem_nil⟩
  · refine ⟨(" + ".intercalate (parts dice)).toList.splitOn ' ', ?_, not_mem_splitOn hparts⟩
    have htext : (" + ".intercalate (parts dice) ++ " " ++ "= " ++ figure total successes).toList =
        (" + ".intercalate (parts dice)).toList ++
          ' ' :: ("= " ++ figure total successes).toList := by
      simp [-String.toList_intercalate]
    rw [htext, List.splitOn_append_cons_self, hbehind]

/-- So it shows its figure. -/
theorem showsFigure_text {dice : List Die} (hkeys : ∀ key ∈ kinds dice, '=' ∉ key.toList)
    (total : Int) (successes : Option Int) :
    ShowsFigure (text dice total successes none none) (figure total successes) := by
  obtain ⟨before, hwords, hbefore⟩ := splitOn_text hkeys total successes
  have hfigure : '=' ∉ (figure total successes).toList :=
    not_mem_figure (by decide) (by decide) total successes
  exact ⟨before, _, hwords, hbefore, not_mem_splitOn hfigure, List.intercalate_splitOn ' '⟩

end Tabletop.Breakdown
