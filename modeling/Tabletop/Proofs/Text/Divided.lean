/-
  Divided texts: a parenthesis or an operator keeps what stands before it from what stands behind.

  Lowering a letter looks at its neighbours, and an alias is looked for across blanks and may begin
  or end only at the end of a word.  None of this reaches over a divider, nor does a divider belong
  to any of it: a text with a divider in it is lowered and expanded as its two parts are.

  The same goes for a blank behind which the die of an alias cannot stand (`Separates`).
-/
import Tabletop.Proofs.Alias
import Tabletop.Proofs.Text.Lowering

namespace Tabletop

open Text

/-- The characters that divide a text: parentheses and operators. -/
def dividers : List Char := ['(', ')', '+', '-', '*', '/']

/-- The dividers are the parentheses and the operators. -/
theorem forall_dividers {P : Char → Prop}
    (h : P '(' ∧ P ')' ∧ P '+' ∧ P '-' ∧ P '*' ∧ P '/') : ∀ d ∈ dividers, P d := by
  simpa [dividers] using h

/-- What makes a character divide a text: it is a letter neither by itself nor for its neighbours,
    no blank, and no character of a word or an alias. -/
structure Divides (d : Char) : Prop where
  small : Small d
  ignorable : isCaseIgnorable d = false
  cased : isCased d = false
  blank : isBlank d = false
  word : isWordChar d = false
  mark : d ≠ '@'
  letters : d ∉ "advisd20".toList

/-- Each of them divides a text. -/
theorem divides_of_mem {d : Char} (h : d ∈ dividers) : Divides d := by
  refine forall_dividers (P := Divides) ⟨?_, ?_, ?_, ?_, ?_, ?_⟩ d h <;>
    exact ⟨⟨by decide, by decide⟩, by decide, by decide, by decide, by decide, by decide, by decide⟩

variable {d : Char}

/-- Letters on its two sides do not see each other. -/
theorem Divides.apart (h : Divides d) : Apart d := ⟨h.small, h.ignorable, h.cased⟩

/-! ## Aliases -/

/-- A word that does not hold the divider ends before it, or does not stand there. -/
theorem after?_append {word : List Char} (h : d ∉ word) (text right : List Char) :
    after? word (text ++ d :: right) = (after? word text).map (· ++ d :: right) := by
  induction word generalizing text with
  | nil => rfl
  | cons w word ih =>
    rw [List.mem_cons, not_or] at h
    cases text with
    | nil => exact if_neg (Ne.symm h.1)
    | cons c text =>
      rw [List.cons_append, after?, after?]
      split
      · exact ih h.2 text
      · rfl

namespace Alias

/-- No die of an alias stands at the beginning of the text, blanks passed over. -/
def NoDie (text : List Char) : Prop := after? "d20".toList (text.dropWhile isBlank) = none

end Alias

/-- What keeps an alias from going on over a character: it belongs to no word and no alias, and if
    it is a blank no die stands behind it. -/
structure Separates (d : Char) (right : List Char) : Prop where
  word : isWordChar d = false
  mark : d ≠ '@'
  letters : d ∉ "advisd20".toList
  die : isBlank d = true → Alias.NoDie right

/-- A character that divides a text separates it from whatever comes behind. -/
theorem Divides.separates (h : Divides d) (right : List Char) : Separates d right := by
  refine ⟨h.word, h.mark, h.letters, fun hblank => ?_⟩
  rw [h.blank] at hblank
  cases hblank

namespace Alias

variable {right : List Char}

/-- Before a divider a word ends, as it does at the end of a text. -/
theorem atBoundary_append (h : Separates d right) (text : List Char) :
    atBoundary (text ++ d :: right) = atBoundary text := by
  cases text with
  | nil => simp [atBoundary, h.word]
  | cons c text => rfl

/-- The die behind the word of an alias ends before a divider, or is not there. -/
theorem afterDie?_append (h : Separates d right) (text : List Char) :
    afterDie? (text ++ d :: right) = (afterDie? text).map (· ++ d :: right) := by
  have hsub : ∀ c ∈ "d20".toList, c ∈ "advisd20".toList := by simp
  have hdie : d ∉ "d20".toList := fun hmem => h.letters (hsub d hmem)
  cases text with
  | nil =>
    show afterDie? (d :: right) = none
    rw [afterDie?]
    split
    · next hblank => exact h.die hblank
    · rfl
  | cons c text =>
    rw [List.cons_append, afterDie?, afterDie?, List.dropWhile_append]
    split
    · cases hdrop : text.dropWhile isBlank with
      | cons e rest =>
        rw [List.isEmpty_cons, if_neg Bool.false_ne_true]
        exact after?_append hdie _ right
      | nil =>
        -- Nothing but blanks stands before the character, and it is one itself or no die begins
        -- there.
        rw [List.isEmpty_nil, if_pos rfl]
        cases hblank : isBlank d with
        | true =>
          rw [List.dropWhile_cons_of_pos hblank]
          exact h.die hblank
        | false =>
          rw [List.dropWhile_cons_of_neg (by simp [hblank])]
          exact after?_append hdie [] right
    · rfl

/-- The letters of the aliases. -/
theorem letters_of_mem_aliases {entry : Alias} (h : entry ∈ aliases) :
    ∀ c ∈ entry.first :: entry.others, c ∈ "advisd20".toList := by
  revert entry
  simp [aliases]

/-- An alias is taken off a text in three steps. -/
theorem rest?_eq (entry : Alias) (text : List Char) :
    entry.rest? text = (after? entry.others text).bind fun more =>
      (if entry.withDie then afterDie? more else some more).bind fun rest =>
        if atBoundary rest then some rest else none := by
  rw [rest?]
  cases after? entry.others text with
  | none => rfl
  | some more =>
    dsimp only [Option.bind_some]
    cases (if entry.withDie then afterDie? more else some more) with
    | none => rfl
    | some rest => rfl

/-- An alias ends before a divider, or does not stand there. -/
theorem rest?_append (h : Separates d right) {entry : Alias} (hentry : entry ∈ aliases)
    (text : List Char) :
    entry.rest? (text ++ d :: right) = (entry.rest? text).map (· ++ d :: right) := by
  have hothers : d ∉ entry.others := fun hmem =>
    h.letters (letters_of_mem_aliases hentry d (List.mem_cons_of_mem _ hmem))
  have hdie : ∀ more, (if entry.withDie then afterDie? (more ++ d :: right)
      else some (more ++ d :: right)) =
        (if entry.withDie then afterDie? more else some more).map (· ++ d :: right) := by
    intro more
    split
    · exact afterDie?_append h more
    · rfl
  rw [rest?_eq, rest?_eq, after?_append hothers]
  cases after? entry.others text with
  | none => rfl
  | some more =>
    rw [Option.map_some, Option.bind_some, Option.bind_some, hdie]
    cases (if entry.withDie then afterDie? more else some more) with
    | none => rfl
    | some rest =>
      rw [Option.map_some, Option.bind_some, Option.bind_some, atBoundary_append h]
      split <;> rfl

/-- An alias is expanded on each side of a divider by itself. -/
theorem expandFrom_append (h : Separates d right) {entry : Alias} (hentry : entry ∈ aliases)
    (inWord : Bool) (left : List Char) :
    entry.expandFrom inWord (left ++ d :: right) =
      entry.expandFrom inWord left ++ d :: entry.expandFrom false right := by
  have hfirst : d ≠ entry.first := fun heq =>
    h.letters (letters_of_mem_aliases hentry d (heq ▸ List.mem_cons_self))
  fun_induction expandFrom entry inWord left with
  | case1 inWord =>
    rw [List.nil_append, expandFrom, if_neg (fun hc => hfirst hc.1), h.word,
      beq_false_of_ne h.mark]
    rfl
  | case2 inWord c text hc rest hrest ih =>
    rw [List.cons_append, expandFrom, if_pos hc]
    split
    · next more hmore =>
      rw [rest?_append h hentry, hrest] at hmore
      cases hmore
      rw [ih, List.append_assoc]
    · next hmore =>
      rw [rest?_append h hentry, hrest] at hmore
      cases hmore
  | case3 inWord c text hc hrest ih =>
    rw [List.cons_append, expandFrom, if_pos hc]
    split
    · next more hmore =>
      rw [rest?_append h hentry, hrest] at hmore
      cases hmore
    · rw [ih, List.cons_append]
  | case4 inWord c text hc ih =>
    rw [List.cons_append, expandFrom, if_neg hc, ih, List.cons_append]

/-- A text without the letter that an alias begins with stays as it is. -/
theorem expandFrom_of_not_mem {entry : Alias} {text : List Char} (h : entry.first ∉ text)
    (inWord : Bool) : entry.expandFrom inWord text = text := by
  induction text generalizing inWord with
  | nil => rw [expandFrom]
  | cons c text ih =>
    rw [List.mem_cons, not_or] at h
    rw [expandFrom, if_neg (fun hc => h.1 hc.1.symm), ih h.2]

end Alias

/-- One alias after the other is expanded on the two sides of a character, if what stands behind it
    keeps it separating all along. -/
theorem expandAll_append_of {I : List Char → Prop} (hI : ∀ right, I right → Separates d right)
    (hstep : ∀ entry ∈ aliases, ∀ right, I right → I (entry.expandFrom false right))
    (left : List Char) {right : List Char} (hright : I right) :
    expandAll (left ++ d :: right) = expandAll left ++ d :: expandAll right := by
  have hfold : ∀ (entries : List Alias) (left right : List Char),
      (∀ entry ∈ entries, entry ∈ aliases) → I right →
        entries.foldl (fun text entry => entry.expandFrom false text) (left ++ d :: right) =
          entries.foldl (fun text entry => entry.expandFrom false text) left ++
            d :: entries.foldl (fun text entry => entry.expandFrom false text) right := by
    intro entries
    induction entries with
    | nil => exact fun left right _ _ => rfl
    | cons entry entries ih =>
      intro left right hentries hright
      rw [List.forall_mem_cons] at hentries
      simp only [List.foldl_cons]
      rw [Alias.expandFrom_append (hI right hright) hentries.1,
        ih _ _ hentries.2 (hstep entry hentries.1 right hright)]
  exact hfold aliases left right (fun _ h => h) hright

/-- All aliases are expanded on each side of a divider by itself. -/
theorem expandAll_append (h : Divides d) (left right : List Char) :
    expandAll (left ++ d :: right) = expandAll left ++ d :: expandAll right :=
  expandAll_append_of (I := fun _ => True) (fun right _ => h.separates right)
    (fun _ _ _ _ => trivial) left trivial

/-- Behind a space, a text without the letters that aliases begin with. -/
theorem expandAll_append_space (left : List Char) {right : List Char} (ha : 'a' ∉ right)
    (hd : 'd' ∉ right) : expandAll (left ++ ' ' :: right) = expandAll left ++ ' ' :: right := by
  have hsame : ∀ entry ∈ aliases, entry.expandFrom false right = right := by
    simp [aliases, Alias.expandFrom_of_not_mem, ha, hd]
  have hdie : Alias.NoDie right := by
    rw [Alias.NoDie, Option.eq_none_iff_forall_not_mem]
    intro rest hrest
    have hmem : 'd' ∈ right.dropWhile isBlank := by
      rw [eq_append_of_after? hrest]
      exact List.mem_append_left rest (by simp)
    exact hd ((List.dropWhile_suffix _).subset hmem)
  have hseparates : Separates ' ' right :=
    ⟨by decide, by decide, by decide, fun _ => hdie⟩
  have hall : expandAll right = right := by
    simp [expandAll, aliases, Alias.expandFrom_of_not_mem, ha, hd]
  rw [expandAll_append_of (I := (· = right)) (fun _ h => h ▸ hseparates)
    (fun entry hentry _ h => h ▸ hsame entry hentry) left rfl, hall]

end Tabletop
