/-
  One alias, and what it makes of a text.

  1. **Words** — inside of a word nothing is expanded, so words of other characters and the meanings
     of aliases are passed over as they are.
  2. **In front** — what ends in no word and in no mark of a variable is expanded without regard to
     what follows, unless that is the die of an alias.
  3. **Behind** — an alias takes blanks and `d20` with it, if a boundary follows; the alias that is
     looked for before it does not change whether they follow.
-/
import Mathlib.Data.List.Basic
import Tabletop.Expr
import Tabletop.Proofs.Text.Divided

namespace Tabletop

open Text

/-! ## Blanks -/

/-- No blank above ASCII lies among the characters of words. -/
theorem highBlanks_apart : alphanumericRanges.all (fun range => highBlanks.all fun row =>
    Nat.blt range.2 row.1 || Nat.blt row.2 range.1) = true := by
  decide +kernel

/-- A blank ends a word. -/
theorem isWordChar_of_isBlank {c : Char} (h : isBlank c = true) : isWordChar c = false := by
  rcases Nat.lt_or_ge c.toNat 128 with hlow | hhigh
  · exact forall_ascii (P := fun c => isBlank c = true → isWordChar c = false) (by decide) hlow h
  · obtain ⟨row, hrow, hbetween⟩ := (isBlank_of_high hhigh).mp h
    rw [isWordChar, if_neg (Nat.not_lt.mpr hhigh), inRanges, List.any_eq_false]
    intro range hrange
    have happart := List.all_eq_true.mp (List.all_eq_true.mp highBlanks_apart range hrange) row hrow
    simp only [Bool.or_eq_true, Nat.blt_eq] at happart
    simp only [Bool.and_eq_true, decide_eq_true_eq]
    omega

namespace Alias

/-! ## The aliases by what they keep -/

/-- The alias for two twenty-sided dice of which the one at that end counts. -/
def keeping (extreme : Extreme) (withDie : Bool) : Alias :=
  match extreme with
  | .high => ⟨'a', "dv".toList, withDie, "2d20kh1".toList⟩
  | .low => ⟨'d', "is".toList, withDie, "2d20kl1".toList⟩

/-- The aliases are the two words with a die behind them and then the two words by themselves. -/
theorem aliases_eq : aliases =
    [keeping .high true, keeping .low true, keeping .high false, keeping .low false] := rfl

/-- The word of such an alias. -/
def word (extreme : Extreme) : List Char :=
  (keeping extreme false).first :: (keeping extreme false).others

/-- What such an alias means. -/
def meaningOf (extreme : Extreme) : List Char := (keeping extreme false).meaning

/-- Both aliases of a word are spelt as the word. -/
theorem word_eq (extreme : Extreme) (withDie : Bool) :
    word extreme = (keeping extreme withDie).first :: (keeping extreme withDie).others := by
  cases extreme <;> rfl

/-- Both aliases of a word mean the same. -/
theorem meaning_keeping (extreme : Extreme) (withDie : Bool) :
    (keeping extreme withDie).meaning = meaningOf extreme := by
  cases extreme <;> rfl

/-- The words are told apart by their first letters. -/
theorem first_keeping (extreme : Extreme) (withDie : Bool) :
    (keeping extreme withDie).first = match extreme with | .high => 'a' | .low => 'd' := by
  cases extreme <;> rfl

/-- Aliases that begin with the same letter keep the same end. -/
theorem first_inj {extreme extreme' : Extreme} {withDie withDie' : Bool}
    (h : (keeping extreme withDie).first = (keeping extreme' withDie').first) :
    extreme = extreme' := by
  rw [first_keeping, first_keeping] at h
  cases extreme with
  | high =>
    cases extreme' with
    | high => rfl
    | low => exact absurd h (by decide)
  | low =>
    cases extreme' with
    | high => exact absurd h (by decide)
    | low => rfl

/-- The words are made of letters. -/
theorem letters_keeping (extreme : Extreme) (withDie : Bool) :
    ∀ c ∈ (keeping extreme withDie).first :: (keeping extreme withDie).others,
      isWordChar c = true := by
  rw [← word_eq]
  cases extreme <;> exact List.all_eq_true.mp rfl

/-! ## Words -/

variable {entry : Alias}

/-- Inside a word nothing is replaced. -/
theorem expandFrom_true_cons (c : Char) (text : List Char) :
    entry.expandFrom true (c :: text) = c :: entry.expandFrom (isWordChar c || c == '@') text := by
  rw [expandFrom, if_neg (by simp)]

/-- Where another letter stands nothing is replaced. -/
theorem expandFrom_false_cons {c : Char} (h : c ≠ entry.first) (text : List Char) :
    entry.expandFrom false (c :: text) = c :: entry.expandFrom (isWordChar c || c == '@') text := by
  rw [expandFrom, if_neg fun hc => h hc.1]

/-- The rest of a word is passed over. -/
theorem expandFrom_word {cs : List Char} (h : ∀ c ∈ cs, isWordChar c = true) (more : List Char) :
    entry.expandFrom true (cs ++ more) = cs ++ entry.expandFrom true more := by
  induction cs with
  | nil => rfl
  | cons c cs ih =>
    rw [List.forall_mem_cons] at h
    rw [List.cons_append, expandFrom_true_cons, h.1, Bool.true_or, ih h.2, List.cons_append]

/-- A word that does not begin as the alias does is passed over. -/
theorem expandFrom_other {c : Char} {cs : List Char} (hfirst : c ≠ entry.first)
    (h : ∀ d ∈ c :: cs, isWordChar d = true) (more : List Char) :
    entry.expandFrom false (c :: cs ++ more) = c :: cs ++ entry.expandFrom true more := by
  rw [List.forall_mem_cons] at h
  rw [List.cons_append, expandFrom_false_cons hfirst, h.1, Bool.true_or, expandFrom_word h.2,
    List.cons_append]

/-- Behind the end of a word it does not matter that there was one. -/
theorem expandFrom_of_atBoundary (hentry : isWordChar entry.first = true) {text : List Char}
    (h : atBoundary text = true) : entry.expandFrom true text = entry.expandFrom false text := by
  cases text with
  | nil => rw [expandFrom, expandFrom]
  | cons c text =>
    have hword : isWordChar c = false := by simpa [atBoundary] using h
    have hne : c ≠ entry.first := by
      rintro rfl
      rw [hentry] at hword
      cases hword
    rw [expandFrom_true_cons, expandFrom_false_cons hne]

/-- Whether a word ends before a text is the same after an alias is expanded in it. -/
theorem atBoundary_expandFrom (text : List Char) :
    atBoundary (entry.expandFrom true text) = atBoundary text := by
  cases text with
  | nil => rw [expandFrom]
  | cons c text =>
    rw [expandFrom_true_cons]
    rfl

/-- The meaning of an alias is a word that begins with a digit, so it is passed over. -/
theorem expandFrom_meaning (extreme extreme' : Extreme) (withDie : Bool) (more : List Char) :
    (keeping extreme' withDie).expandFrom false (meaningOf extreme ++ more) =
      meaningOf extreme ++ (keeping extreme' withDie).expandFrom true more := by
  have hfirst : '2' ≠ (keeping extreme' withDie).first := by
    rw [first_keeping]
    cases extreme' <;> decide
  cases extreme with
  | high => exact expandFrom_other hfirst (List.all_eq_true.mp rfl) more
  | low => exact expandFrom_other hfirst (List.all_eq_true.mp rfl) more

/-! ## In front -/

/-- The text ends in a character that belongs to no word, and is no mark of a variable. -/
def EndsFree (text : List Char) : Prop :=
  ∃ c ∈ text.getLast?, isWordChar c = false ∧ c ≠ '@'

/-- An end of a text that leaves free what follows does so, too. -/
theorem EndsFree.of_suffix {text rest : List Char} (h : EndsFree text) (hsuffix : rest <:+ text)
    (hne : rest ≠ []) : EndsFree rest := by
  obtain ⟨front, rfl⟩ := hsuffix
  rwa [EndsFree, List.getLast?_append_of_ne_nil front hne] at h

theorem EndsFree.ne_nil {text : List Char} (h : EndsFree text) : text ≠ [] := by
  rintro rfl
  obtain ⟨c, hc, -⟩ := h
  cases hc

/-- A text still leaves free what follows with one character more in front. -/
theorem EndsFree.cons {text : List Char} (h : EndsFree text) (c : Char) : EndsFree (c :: text) := by
  have hne := h.ne_nil
  rwa [EndsFree, List.getLast?_cons_of_ne_nil hne]

/-- A text still leaves free what follows with more in front. -/
theorem EndsFree.append {text : List Char} (h : EndsFree text) (front : List Char) :
    EndsFree (front ++ text) := by
  rwa [EndsFree, List.getLast?_append_of_ne_nil front h.ne_nil]

theorem EndsFree.singleton {c : Char} (h : EndsFree [c]) : isWordChar c = false ∧ c ≠ '@' := by
  obtain ⟨d, hd, hfree⟩ := h
  cases hd
  exact hfree

/-- Behind the first character such a text goes on, or it is one. -/
theorem EndsFree.tail {c : Char} {text : List Char} (h : EndsFree (c :: text)) :
    text = [] ∧ isWordChar c = false ∧ c ≠ '@' ∨ EndsFree text := by
  cases text with
  | nil => exact Or.inl ⟨rfl, h.singleton⟩
  | cons d text => exact Or.inr (h.of_suffix (List.suffix_cons c _) (by simp))

/-- What follows does not make a word of what ends free. -/
theorem after?_endsFree {word : List Char} (hword : ∀ w ∈ word, isWordChar w = true)
    {text : List Char} (h : EndsFree text) (more : List Char) :
    after? word (text ++ more) = (after? word text).map (· ++ more) ∧
      ∀ rest ∈ after? word text, EndsFree rest := by
  induction word generalizing text with
  | nil =>
    refine ⟨rfl, ?_⟩
    rintro rest ⟨⟩
    exact h
  | cons w word ih =>
    rw [List.forall_mem_cons] at hword
    cases text with
    | nil => exact absurd rfl h.ne_nil
    | cons c text =>
      rw [List.cons_append, after?, after?]
      by_cases hc : w = c
      · rw [if_pos hc, if_pos hc]
        rcases h.tail with ⟨-, hfree, -⟩ | htail
        · rw [← hc, hword.1] at hfree
          cases hfree
        · exact ih hword.2 htail
      · rw [if_neg hc, if_neg hc]
        exact ⟨rfl, fun rest hrest => absurd hrest (Option.not_mem_none rest)⟩

theorem isWordChar_die : ∀ c ∈ "d20".toList, isWordChar c = true :=
  List.all_eq_true.mp rfl

/-- The die behind the word of an alias is looked for in the text alone, if what follows begins with
    none. -/
theorem afterDie?_endsFree {text : List Char} (h : EndsFree text) {more : List Char}
    (hmore : NoDie more) :
    afterDie? (text ++ more) = (afterDie? text).map (· ++ more) ∧
      ∀ rest ∈ afterDie? text, EndsFree rest := by
  cases text with
  | nil => exact absurd rfl h.ne_nil
  | cons c text =>
    rw [List.cons_append, afterDie?, afterDie?]
    cases hc : isBlank c with
    | false => exact ⟨rfl, fun rest hrest => absurd hrest (Option.not_mem_none rest)⟩
    | true =>
      rw [if_pos rfl, if_pos rfl, List.dropWhile_append]
      cases hdrop : text.dropWhile isBlank with
      | nil =>
        rw [List.isEmpty_nil, if_pos rfl, hmore]
        exact ⟨rfl, fun rest hrest => absurd hrest (Option.not_mem_none rest)⟩
      | cons d rest =>
        have hrest : EndsFree (d :: rest) := by
          rw [← hdrop]
          refine h.of_suffix ((List.dropWhile_suffix _).trans (List.suffix_cons c text)) ?_
          simp [hdrop]
        rw [List.isEmpty_cons, if_neg Bool.false_ne_true]
        exact after?_endsFree isWordChar_die hrest more

/-- Whether a text begins at the end of a word is told by its first character. -/
theorem atBoundary_append_of_ne_nil {text : List Char} (h : text ≠ []) (more : List Char) :
    atBoundary (text ++ more) = atBoundary text := by
  cases text with
  | nil => exact absurd rfl h
  | cons c text => rfl

/-- An alias that is looked for in what ends free does not go on over the end. -/
theorem rest?_endsFree (hothers : ∀ c ∈ entry.others, isWordChar c = true) {text : List Char}
    (h : EndsFree text) {more : List Char} (hmore : NoDie more) :
    entry.rest? (text ++ more) = (entry.rest? text).map (· ++ more) ∧
      ∀ rest ∈ entry.rest? text, EndsFree rest := by
  obtain ⟨hword, hfree⟩ := after?_endsFree hothers h more
  rw [rest?_eq, rest?_eq, hword]
  cases hafter : after? entry.others text with
  | none => exact ⟨rfl, fun rest hrest => absurd hrest (Option.not_mem_none rest)⟩
  | some text' =>
    have htext' : EndsFree text' := hfree text' hafter
    have hdie : (if entry.withDie then afterDie? (text' ++ more) else some (text' ++ more)) =
        (if entry.withDie then afterDie? text' else some text').map (· ++ more) ∧
          ∀ rest ∈ (if entry.withDie then afterDie? text' else some text'), EndsFree rest := by
      split
      · exact afterDie?_endsFree htext' hmore
      · refine ⟨rfl, ?_⟩
        rintro rest ⟨⟩
        exact htext'
    rw [Option.map_some, Option.bind_some, Option.bind_some, hdie.1]
    cases hrest : (if entry.withDie then afterDie? text' else some text') with
    | none => exact ⟨rfl, fun rest hrest => absurd hrest (Option.not_mem_none rest)⟩
    | some rest =>
      have hfreeRest : EndsFree rest := hdie.2 rest hrest
      rw [Option.map_some, Option.bind_some, Option.bind_some,
        atBoundary_append_of_ne_nil hfreeRest.ne_nil]
      split
      · refine ⟨rfl, ?_⟩
        rintro _ ⟨⟩
        exact hfreeRest
      · exact ⟨rfl, fun rest hrest => absurd hrest (Option.not_mem_none rest)⟩

/-- What ends free is expanded without regard to what follows, and ends free again: induction along
    the expansion. -/
theorem expandFrom_endsFree (hletters : ∀ c ∈ entry.first :: entry.others, isWordChar c = true)
    {text : List Char} (h : EndsFree text) {more : List Char} (hmore : NoDie more)
    (inWord : Bool) :
    entry.expandFrom inWord (text ++ more) =
        entry.expandFrom inWord text ++ entry.expandFrom false more ∧
      EndsFree (entry.expandFrom inWord text) := by
  rw [List.forall_mem_cons] at hletters
  fun_induction expandFrom entry inWord text with
  | case1 inWord => exact absurd rfl h.ne_nil
  | case2 inWord c text hc rest hrest ih =>
    have htext : EndsFree text := by
      rcases h.tail with ⟨-, hword, -⟩ | htext
      · rw [hc.1, hletters.1] at hword
        cases hword
      · exact htext
    -- The alias that is found in the text is found with more behind it, too.
    obtain ⟨hsame, hfree⟩ := rest?_endsFree hletters.2 htext hmore
    rw [hrest] at hsame hfree
    obtain ⟨hmeets, hends⟩ := ih (hfree rest rfl)
    refine ⟨?_, hends.append _⟩
    rw [List.cons_append, expandFrom, if_pos hc]
    split
    · next rest' hrest' =>
      cases hsame.symm.trans hrest'
      rw [hmeets, List.append_assoc]
    · next hnone => cases hsame.symm.trans hnone
  | case3 inWord c text hc hrest ih =>
    have htext : EndsFree text := by
      rcases h.tail with ⟨-, hword, -⟩ | htext
      · rw [hc.1, hletters.1] at hword
        cases hword
      · exact htext
    -- Where none is found in the text, none is found with more behind it.
    have hsame := (rest?_endsFree hletters.2 htext hmore).1
    rw [hrest] at hsame
    obtain ⟨hmeets, hends⟩ := ih htext
    refine ⟨?_, hends.cons c⟩
    rw [List.cons_append, expandFrom, if_pos hc]
    split
    · next rest' hrest' => cases hsame.symm.trans hrest'
    · rw [hmeets, List.cons_append]
  | case4 inWord c text hc ih =>
    rw [List.cons_append, expandFrom, if_neg hc]
    rcases h.tail with ⟨rfl, hword, hmark⟩ | htext
    · rw [hword, beq_false_of_ne hmark, Bool.or_false, List.nil_append, expandFrom]
      exact ⟨rfl, h⟩
    · obtain ⟨hmeets, hends⟩ := ih htext
      exact ⟨by rw [hmeets, List.cons_append], hends.cons c⟩

/-! ## Behind -/

/-- What an alias with a die leaves of the text behind its word, if it has its die there. -/
def behindDie? (text : List Char) : Option (List Char) :=
  (afterDie? text).bind fun rest => if atBoundary rest then some rest else none

/-- What an alias leaves of the text behind its word, its die taken with it. -/
def behind (text : List Char) : List Char := (behindDie? text).getD text

/-- Behind the other letters of a word stands what follows them. -/
theorem after?_others (extreme : Extreme) (withDie : Bool) (more : List Char) :
    after? (keeping extreme withDie).others ((keeping extreme withDie).others ++ more) =
      some more := by
  cases extreme <;> rfl

/-- The alias with a die needs the die behind its word. -/
theorem rest?_withDie (extreme : Extreme) (more : List Char) :
    (keeping extreme true).rest? ((keeping extreme true).others ++ more) = behindDie? more := by
  have hdie : (keeping extreme true).withDie = true := by cases extreme <;> rfl
  rw [rest?_eq, after?_others, Option.bind_some, hdie, if_pos rfl]
  rfl

/-- The alias by itself needs the end of its word. -/
theorem rest?_bare (extreme : Extreme) {more : List Char} (h : atBoundary more = true) :
    (keeping extreme false).rest? ((keeping extreme false).others ++ more) = some more := by
  have hdie : (keeping extreme false).withDie = false := by cases extreme <;> rfl
  rw [rest?_eq, after?_others, Option.bind_some, hdie, if_neg Bool.false_ne_true,
    Option.bind_some, if_pos h]

/-- A word with its die is replaced. -/
theorem expandFrom_withDie {extreme : Extreme} {more rest : List Char}
    (h : behindDie? more = some rest) :
    (keeping extreme true).expandFrom false (word extreme ++ more) =
      meaningOf extreme ++ (keeping extreme true).expandFrom true rest := by
  rw [word_eq extreme true, List.cons_append, expandFrom, if_pos ⟨rfl, rfl⟩]
  split
  · next rest' hrest' =>
    rw [rest?_withDie, h] at hrest'
    cases hrest'
    rw [meaning_keeping]
  · next hnone =>
    rw [rest?_withDie, h] at hnone
    cases hnone

/-- A word without its die is left to the alias without one. -/
theorem expandFrom_withoutDie {extreme : Extreme} {more : List Char} (h : behindDie? more = none) :
    (keeping extreme true).expandFrom false (word extreme ++ more) =
      word extreme ++ (keeping extreme true).expandFrom true more := by
  have hothers : ∀ c ∈ (keeping extreme true).others, isWordChar c = true := fun c hc =>
    letters_keeping extreme true c (List.mem_cons_of_mem _ hc)
  rw [word_eq extreme true, List.cons_append, expandFrom, if_pos ⟨rfl, rfl⟩]
  split
  · next rest' hrest' =>
    rw [rest?_withDie, h] at hrest'
    cases hrest'
  · rw [expandFrom_word hothers, List.cons_append]

/-- A bare word at a boundary is replaced. -/
theorem expandFrom_bare {extreme : Extreme} {more : List Char} (h : atBoundary more = true) :
    (keeping extreme false).expandFrom false (word extreme ++ more) =
      meaningOf extreme ++ (keeping extreme false).expandFrom true more := by
  rw [word_eq extreme false, List.cons_append, expandFrom, if_pos ⟨rfl, rfl⟩]
  split
  · next rest' hrest' =>
    rw [rest?_bare extreme h] at hrest'
    cases hrest'
    rw [meaning_keeping]
  · next hnone =>
    rw [rest?_bare extreme h] at hnone
    cases hnone

/-- The word of the other alias is passed over. -/
theorem expandFrom_otherWord {extreme extreme' : Extreme} (hne : extreme ≠ extreme')
    (withDie : Bool) (more : List Char) :
    (keeping extreme' withDie).expandFrom false (word extreme ++ more) =
      word extreme ++ (keeping extreme' withDie).expandFrom true more := by
  have hfirst : (keeping extreme false).first ≠ (keeping extreme' withDie).first :=
    fun h => hne (first_inj h)
  exact expandFrom_other hfirst (letters_keeping extreme false) more

/-! ### The die behind an expanded text -/

/-- A word that the alias does not begin with is found behind the same text before the expansion as
    after it. -/
theorem after?_expandFrom_true {cs : List Char} (h : ∀ c ∈ cs, isWordChar c = true)
    (text : List Char) :
    after? cs (entry.expandFrom true text) = (after? cs text).map (entry.expandFrom true) := by
  induction cs generalizing text with
  | nil => rfl
  | cons w cs ih =>
    rw [List.forall_mem_cons] at h
    cases text with
    | nil =>
      rw [expandFrom]
      rfl
    | cons c text =>
      rw [expandFrom_true_cons, after?, after?]
      by_cases hc : w = c
      · rw [if_pos hc, if_pos hc, ← hc, h.1, Bool.true_or, ih h.2]
      · rw [if_neg hc, if_neg hc]
        rfl

/-- A word without the first letter of the alias is found in the same places after the expansion. -/
theorem after?_expandFrom {extreme : Extreme} {withDie : Bool} {c : Char} {cs : List Char}
    (hfirst : c ≠ (keeping extreme withDie).first) (hdigit : c ≠ '2')
    (h : ∀ d ∈ c :: cs, isWordChar d = true) (text : List Char) :
    after? (c :: cs) ((keeping extreme withDie).expandFrom false text) =
      (after? (c :: cs) text).map ((keeping extreme withDie).expandFrom true) := by
  rw [List.forall_mem_cons] at h
  cases text with
  | nil =>
    rw [expandFrom]
    rfl
  | cons d text =>
    by_cases hd : d = (keeping extreme withDie).first
    · -- What stands here begins with the letter of the alias, or with the digit of its meaning.
      have hnone : after? (c :: cs) (d :: text) = none := by
        rw [after?, if_neg (hd ▸ hfirst)]
      rw [hnone, expandFrom, if_pos ⟨hd, rfl⟩]
      split
      · rw [meaning_keeping]
        cases extreme <;> exact if_neg hdigit
      · exact if_neg (hd ▸ hfirst)
    · rw [expandFrom_false_cons hd, after?, after?]
      by_cases hc : c = d
      · rw [if_pos hc, if_pos hc, ← hc, h.1, Bool.true_or, after?_expandFrom_true h.2]
      · rw [if_neg hc, if_neg hc]
        rfl

/-- Blanks are passed over before the expansion as after it. -/
theorem dropWhile_expandFrom {extreme : Extreme} {withDie : Bool} (text : List Char) :
    ((keeping extreme withDie).expandFrom false text).dropWhile isBlank =
      (keeping extreme withDie).expandFrom false (text.dropWhile isBlank) := by
  have hblank : isBlank (keeping extreme withDie).first = false := by
    rw [first_keeping]
    cases extreme <;> decide
  induction text with
  | nil => rw [expandFrom, List.dropWhile_nil, expandFrom]
  | cons c text ih =>
    by_cases hc : c = (keeping extreme withDie).first
    · rw [List.dropWhile_cons_of_neg (by simp [hc, hblank]), expandFrom, if_pos ⟨hc, rfl⟩]
      split
      · rw [meaning_keeping]
        cases extreme <;> rfl
      · exact List.dropWhile_cons_of_neg (by simp [hc, hblank])
    · rw [expandFrom_false_cons hc]
      cases hb : isBlank c with
      | false =>
        rw [List.dropWhile_cons_of_neg (by simp [hb]), List.dropWhile_cons_of_neg (by simp [hb]),
          expandFrom_false_cons hc]
      | true =>
        have hmark : c ≠ '@' := by
          rintro rfl
          cases hb
        rw [List.dropWhile_cons_of_pos hb, List.dropWhile_cons_of_pos hb,
          isWordChar_of_isBlank hb, beq_false_of_ne hmark, Bool.or_false, ih]

/-- The alias that comes first leaves the die of the other one where it is. -/
theorem behindDie?_expandFrom {text : List Char} (h : atBoundary text = true) :
    behindDie? ((keeping .high true).expandFrom false text) =
      (behindDie? text).map ((keeping .high true).expandFrom true) := by
  have hfilter : ∀ found : Option (List Char),
      ((found.map ((keeping .high true).expandFrom true)).bind fun rest =>
        if atBoundary rest then some rest else none) =
          (found.bind fun rest => if atBoundary rest then some rest else none).map
            ((keeping .high true).expandFrom true) := by
    rintro (_ | rest)
    · rfl
    · rw [Option.map_some, Option.bind_some, Option.bind_some, atBoundary_expandFrom]
      split <;> rfl
  rw [behindDie?, behindDie?, ← hfilter]
  -- What is left is the die itself, which stands behind blanks, and no alias begins with a blank.
  congr 1
  cases text with
  | nil =>
    rw [expandFrom]
    rfl
  | cons c text =>
    have hword : isWordChar c = false := by simpa [atBoundary] using h
    have hne : c ≠ (keeping .high true).first := by
      rintro rfl
      cases hword
    rw [expandFrom_false_cons hne, afterDie?, afterDie?]
    cases hc : isBlank c with
    | false => rfl
    | true =>
      have hmark : c ≠ '@' := by
        rintro rfl
        cases hc
      rw [if_pos rfl, if_pos rfl, hword, beq_false_of_ne hmark, Bool.or_false,
        dropWhile_expandFrom]
      exact after?_expandFrom (by decide) (by decide) isWordChar_die _

/-! ## One alias after the other -/

variable {extreme extreme' : Extreme} {withDie : Bool} {more : List Char}

/-- Behind a boundary an expansion begins anew. -/
theorem expandFrom_true_of_atBoundary (h : atBoundary more = true) :
    (keeping extreme withDie).expandFrom true more =
      (keeping extreme withDie).expandFrom false more :=
  expandFrom_of_atBoundary (letters_keeping extreme withDie _ List.mem_cons_self) h

/-- What began at the end of a word still does when an alias is expanded in it. -/
theorem atBoundary_expanded (h : atBoundary more = true) :
    atBoundary ((keeping extreme withDie).expandFrom false more) = true := by
  rw [← expandFrom_true_of_atBoundary h, atBoundary_expandFrom, h]

/-- Behind a die a word ends. -/
theorem atBoundary_of_behindDie? {rest : List Char} (h : behindDie? more = some rest) :
    atBoundary rest = true := by
  obtain ⟨found, -, hrest⟩ := Option.bind_eq_some_iff.mp h
  split at hrest
  · next hboundary =>
    cases hrest
    exact hboundary
  · cases hrest

/-- The meaning of an alias before a boundary stays. -/
theorem expandFrom_meaning_of_atBoundary (h : atBoundary more = true) :
    (keeping extreme' withDie).expandFrom false (meaningOf extreme ++ more) =
      meaningOf extreme ++ (keeping extreme' withDie).expandFrom false more := by
  rw [expandFrom_meaning, expandFrom_true_of_atBoundary h]

/-- The word of one alias stays when the other one is expanded, which begins anew behind it. -/
theorem expandFrom_otherWord_of_atBoundary (hne : extreme ≠ extreme') (h : atBoundary more = true) :
    (keeping extreme' withDie).expandFrom false (word extreme ++ more) =
      word extreme ++ (keeping extreme' withDie).expandFrom false more := by
  rw [expandFrom_otherWord hne, expandFrom_true_of_atBoundary h]

end Alias

end Tabletop
