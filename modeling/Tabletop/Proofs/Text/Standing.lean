/-
  An alias that stands free is replaced, whatever else is in the text.

  The aliases are looked for one after the other, those with a die first.  A word that stands at a
  boundary is therefore replaced with its die by one of the first two, or without one by one of the
  last two; the others pass over the word, and over the meaning once it is there (`expandAll_word`).
  And what is in front of it is expanded by itself by each of them, for it ends free each time.
-/
import Tabletop.Proofs.Text.Replacing

namespace Tabletop

open Alias

/-- The aliases with a die come first. -/
def expandDice (text : List Char) : List Char :=
  (keeping .low true).expandFrom false ((keeping .high true).expandFrom false text)

/-- The bare words come last. -/
def expandBare (text : List Char) : List Char :=
  (keeping .low false).expandFrom false ((keeping .high false).expandFrom false text)

theorem expandAll_eq (text : List Char) : expandAll text = expandBare (expandDice text) := rfl

variable {extreme : Extreme} {more : List Char}

/-- The word of an alias and the die behind it become the meaning; without a die the word stays. -/
theorem expandDice_word (h : atBoundary more = true) :
    expandDice (word extreme ++ more) =
      match behindDie? more with
      | some rest => meaningOf extreme ++ expandDice rest
      | none => word extreme ++ expandDice more := by
  cases extreme with
  | high =>
    cases hdie : behindDie? more with
    | some rest =>
      have hrest := atBoundary_of_behindDie? hdie
      rw [expandDice, expandFrom_withDie hdie, expandFrom_true_of_atBoundary hrest,
        expandFrom_meaning_of_atBoundary (atBoundary_expanded hrest)]
      rfl
    | none =>
      rw [expandDice, expandFrom_withoutDie hdie, expandFrom_true_of_atBoundary h,
        expandFrom_otherWord_of_atBoundary (by decide) (atBoundary_expanded h)]
      rfl
  | low =>
    have hmove := behindDie?_expandFrom h
    rw [expandDice, expandFrom_otherWord_of_atBoundary (by decide) h]
    cases hdie : behindDie? more with
    | some rest =>
      have hrest := atBoundary_of_behindDie? hdie
      rw [hdie, Option.map_some, expandFrom_true_of_atBoundary hrest] at hmove
      rw [expandFrom_withDie hmove, expandFrom_true_of_atBoundary (atBoundary_expanded hrest)]
      rfl
    | none =>
      rw [hdie, Option.map_none] at hmove
      rw [expandFrom_withoutDie hmove, expandFrom_true_of_atBoundary (atBoundary_expanded h)]
      rfl

/-- A word by itself becomes the meaning. -/
theorem expandBare_word (h : atBoundary more = true) :
    expandBare (word extreme ++ more) = meaningOf extreme ++ expandBare more := by
  cases extreme with
  | high =>
    rw [expandBare, expandFrom_bare h, expandFrom_true_of_atBoundary h,
      expandFrom_meaning_of_atBoundary (atBoundary_expanded h)]
    rfl
  | low =>
    rw [expandBare, expandFrom_otherWord_of_atBoundary (by decide) h,
      expandFrom_bare (atBoundary_expanded h),
      expandFrom_true_of_atBoundary (atBoundary_expanded h)]
    rfl

/-- The meaning of an alias is left as it is. -/
theorem expandBare_meaning (h : atBoundary more = true) :
    expandBare (meaningOf extreme ++ more) = meaningOf extreme ++ expandBare more := by
  rw [expandBare, expandFrom_meaning_of_atBoundary h,
    expandFrom_meaning_of_atBoundary (atBoundary_expanded h)]
  rfl

/-- All aliases together make its meaning of a word at a boundary. -/
theorem expandAll_word (h : atBoundary more = true) :
    expandAll (word extreme ++ more) = meaningOf extreme ++ expandAll (behind more) := by
  have hboundary : ∀ text, atBoundary text = true → atBoundary (expandDice text) = true :=
    fun text h => atBoundary_expanded (atBoundary_expanded h)
  rw [expandAll_eq, expandDice_word h, behind, expandAll_eq]
  cases hdie : behindDie? more with
  | some rest => exact expandBare_meaning (hboundary rest (atBoundary_of_behindDie? hdie))
  | none => exact expandBare_word (hboundary more h)

/-! ## In front of an alias -/

/-- The word of an alias or its meaning, with a boundary behind it. -/
def BeginsAlias (extreme : Extreme) (text : List Char) : Prop :=
  ∃ rest, atBoundary rest = true ∧ (text = word extreme ++ rest ∨ text = meaningOf extreme ++ rest)

/-- What begins with an alias begins with no die. -/
theorem BeginsAlias.noDie {text : List Char} (h : BeginsAlias extreme text) : NoDie text := by
  obtain ⟨rest, -, rfl | rfl⟩ := h
  · cases extreme <;> rfl
  · cases extreme <;> rfl

/-- What begins with an alias still does after an alias was expanded. -/
theorem BeginsAlias.expandFrom {text : List Char} (h : BeginsAlias extreme text)
    (extreme' : Extreme) (withDie : Bool) :
    BeginsAlias extreme ((keeping extreme' withDie).expandFrom false text) := by
  obtain ⟨rest, hrest, rfl | rfl⟩ := h
  · by_cases hsame : extreme = extreme'
    · subst hsame
      cases withDie with
      | true =>
        cases hdie : behindDie? rest with
        | some later =>
          have hlater := atBoundary_of_behindDie? hdie
          rw [expandFrom_withDie hdie]
          exact ⟨_, (atBoundary_expandFrom later).trans hlater, Or.inr rfl⟩
        | none =>
          rw [expandFrom_withoutDie hdie]
          exact ⟨_, (atBoundary_expandFrom rest).trans hrest, Or.inl rfl⟩
      | false =>
        rw [expandFrom_bare hrest]
        exact ⟨_, (atBoundary_expandFrom rest).trans hrest, Or.inr rfl⟩
    · rw [expandFrom_otherWord hsame]
      exact ⟨_, (atBoundary_expandFrom rest).trans hrest, Or.inl rfl⟩
  · rw [expandFrom_meaning]
    exact ⟨_, (atBoundary_expandFrom rest).trans hrest, Or.inr rfl⟩

/-- A text that is empty or ends free: an alias may begin behind it. -/
def LeavesFree (text : List Char) : Prop := text = [] ∨ EndsFree text

/-- A text that leaves free what comes behind it is expanded by itself, and leaves it free then,
    too. -/
theorem LeavesFree.expandFrom {front : List Char} (h : LeavesFree front) {more : List Char}
    (hmore : NoDie more) (extreme' : Extreme) (withDie : Bool) :
    (keeping extreme' withDie).expandFrom false (front ++ more) =
        (keeping extreme' withDie).expandFrom false front ++
          (keeping extreme' withDie).expandFrom false more ∧
      LeavesFree ((keeping extreme' withDie).expandFrom false front) := by
  rcases h with rfl | hfree
  · have hnil : (keeping extreme' withDie).expandFrom false [] = [] := by rw [Alias.expandFrom]
    rw [hnil]
    exact ⟨rfl, Or.inl rfl⟩
  · obtain ⟨hmeets, hends⟩ :=
      expandFrom_endsFree (letters_keeping extreme' withDie) hfree hmore false
    exact ⟨hmeets, Or.inr hends⟩

/-- In front of an alias the text is expanded by itself, and leaves free what comes behind it:
    induction on the aliases that are looked for. -/
theorem LeavesFree.expandAll {front : List Char} (h : LeavesFree front) {text : List Char}
    (htext : BeginsAlias extreme text) :
    expandAll (front ++ text) = Tabletop.expandAll front ++ Tabletop.expandAll text ∧
      LeavesFree (Tabletop.expandAll front) := by
  have hfold : ∀ (entries : List Alias) (front text : List Char),
      (∀ entry ∈ entries, entry ∈ aliases) → LeavesFree front → BeginsAlias extreme text →
        entries.foldl (fun text entry => entry.expandFrom false text) (front ++ text) =
            entries.foldl (fun text entry => entry.expandFrom false text) front ++
              entries.foldl (fun text entry => entry.expandFrom false text) text ∧
          LeavesFree (entries.foldl (fun text entry => entry.expandFrom false text) front) := by
    intro entries
    induction entries with
    | nil => exact fun front text _ hfront _ => ⟨rfl, hfront⟩
    | cons entry entries ih =>
      intro front text hentries hfront htext
      rw [List.forall_mem_cons] at hentries
      obtain ⟨extreme', withDie, rfl⟩ : ∃ extreme' withDie, entry = keeping extreme' withDie := by
        have hentry := hentries.1
        rw [aliases_eq] at hentry
        simp only [List.mem_cons, List.not_mem_nil, or_false] at hentry
        rcases hentry with rfl | rfl | rfl | rfl <;> exact ⟨_, _, rfl⟩
      obtain ⟨hmeets, hfree⟩ := hfront.expandFrom htext.noDie extreme' withDie
      rw [List.foldl_cons, List.foldl_cons, List.foldl_cons, hmeets]
      exact ih _ _ hentries.2 hfree (htext.expandFrom extreme' withDie)
  exact hfold aliases front text (fun _ h => h) h htext

/-- An alias with nothing of a word in front of it, and the end of a word behind it. -/
structure StandsFree (front back : List Char) : Prop where
  front : LeavesFree front
  back : atBoundary back = true

/-- **An alias that stands free** is replaced by its meaning, and what is in front of it and behind
    it is expanded by itself. -/
theorem expandAll_standing (extreme : Extreme) {front back : List Char}
    (h : StandsFree front back) :
    expandAll (front ++ (word extreme ++ back)) =
        expandAll front ++ (meaningOf extreme ++ expandAll (behind back)) ∧
      LeavesFree (expandAll front) := by
  have hbegins : BeginsAlias extreme (word extreme ++ back) := ⟨back, h.back, Or.inl rfl⟩
  obtain ⟨hmeets, hfree⟩ := h.front.expandAll hbegins
  exact ⟨by rw [hmeets, expandAll_word h.back], hfree⟩

example : expandAll "5 adv  d20+adv 7".toList = "5 2d20kh1+2d20kh1 7".toList := by decide +kernel

end Tabletop
