/-
  Texts in which no alias stands, and what the expansion makes of a text.

  1. **Standing** — an alias stands in a text where its word begins at a free place and ends at a
     boundary.  `Stands` follows the text from its beginning as the expansion does, and tells of
     each place whether the character before it keeps an alias from beginning there.
  2. **Left alone** — where no alias stands, the expansion changes nothing.
  3. **Expanded** — the bare alias takes every place of its own word and makes none for the other
     one: a meaning is a word that begins with a digit, so that nothing stands in it or across its
     end.  After both bare aliases none stands any more.
  4. **Squeezed** — one space for each run of blanks is a boundary where the blanks were one, so no
     alias comes to stand by it.
-/
import Tabletop.Proofs.Notation.Glyphs
import Tabletop.Proofs.Text.Standing

namespace Tabletop

open Text

namespace Alias

variable {extreme extreme' : Extreme} {withDie inWord : Bool} {text : List Char}

/-! ## Standing -/

/-- The word of an alias stands in a text, `inWord` telling that the character before the text keeps
    an alias from beginning here. -/
inductive Stands (extreme : Extreme) : Bool → List Char → Prop where
  | here {text rest : List Char} (found : (keeping extreme false).rest? text = some rest) :
      Stands extreme false ((keeping extreme false).first :: text)
  | later {inWord : Bool} {c : Char} {text : List Char}
      (further : Stands extreme (isWordChar c || c == '@') text) : Stands extreme inWord (c :: text)

/-- A bare alias leaves what is behind its word, if that is a boundary. -/
theorem rest?_bare_eq_some {rest : List Char} :
    (keeping extreme false).rest? text = some rest ↔
      text = (keeping extreme false).others ++ rest ∧ atBoundary rest = true := by
  constructor
  · intro h
    have hbare : (keeping extreme false).withDie = false := by cases extreme <;> rfl
    obtain ⟨more, rfl, hfound, hboundary⟩ := of_rest?_eq_some h
    rw [hbare, if_neg Bool.false_ne_true] at hfound
    cases hfound
    exact ⟨rfl, hboundary⟩
  · rintro ⟨rfl, hboundary⟩
    exact rest?_bare extreme hboundary

/-- An alias stands where its word has a boundary behind it, and in front of it is nothing, or what
    ends free. -/
theorem stands_iff : Stands extreme inWord text ↔
    ∃ front back, text = front ++ (word extreme ++ back) ∧ atBoundary back = true ∧
      (front = [] ∧ inWord = false ∨ EndsFree front) := by
  constructor
  · intro h
    induction h with
    | @here text rest found =>
      obtain ⟨rfl, hboundary⟩ := rest?_bare_eq_some.mp found
      exact ⟨[], rest, rfl, hboundary, Or.inl ⟨rfl, rfl⟩⟩
    | @later inWord c text further ih =>
      obtain ⟨front, back, rfl, hback, hfront⟩ := ih
      refine ⟨c :: front, back, rfl, hback, Or.inr ?_⟩
      rcases hfront with ⟨rfl, hfree⟩ | hfront
      · simp only [Bool.or_eq_false_iff, beq_eq_false_iff_ne] at hfree
        exact ⟨c, rfl, hfree⟩
      · exact hfront.cons c
  · rintro ⟨front, back, rfl, hback, hfront⟩
    induction front generalizing inWord with
    | nil =>
      obtain ⟨-, rfl⟩ := hfront.resolve_right fun hfree => hfree.ne_nil rfl
      exact .here (rest?_bare extreme hback)
    | cons c front ih =>
      have hfree := hfront.resolve_left fun h => List.cons_ne_nil c front h.1
      refine .later (ih ?_)
      cases front with
      | nil =>
        obtain ⟨hword, hmark⟩ := hfree.singleton
        exact Or.inl ⟨rfl, by rw [hword, beq_false_of_ne hmark, Bool.or_self]⟩
      | cons d front =>
        exact Or.inr (hfree.of_suffix (List.suffix_cons c _) (List.cons_ne_nil d front))

/-- An alias stands at the beginning of a text or further on. -/
theorem stands_cons {c : Char} : Stands extreme inWord (c :: text) ↔
    inWord = false ∧ c = (keeping extreme false).first ∧
        ((keeping extreme false).rest? text).isSome = true ∨
      Stands extreme (isWordChar c || c == '@') text := by
  constructor
  · intro h
    generalize hwhole : c :: text = whole at h
    cases h with
    | here found =>
      cases hwhole
      exact Or.inl ⟨rfl, rfl, Option.isSome_iff_exists.mpr ⟨_, found⟩⟩
    | later further =>
      cases hwhole
      exact Or.inr further
  · rintro (⟨rfl, rfl, hfound⟩ | further)
    · obtain ⟨rest, hrest⟩ := Option.isSome_iff_exists.mp hfound
      exact .here hrest
    · exact .later further

/-- Whether an alias stands in a text is found by going through it. -/
instance decidableStands (extreme : Extreme) :
    (inWord : Bool) → (text : List Char) → Decidable (Stands extreme inWord text)
  | _, [] => .isFalse nofun
  | _, c :: text =>
    have := decidableStands extreme (isWordChar c || c == '@') text
    decidable_of_iff _ stands_cons.symm

/-- Nothing stands across the rest of a word. -/
theorem stands_true_append {cs : List Char} (h : ∀ c ∈ cs, isWordChar c = true) :
    Stands extreme true (cs ++ text) ↔ Stands extreme true text := by
  induction cs with
  | nil => rfl
  | cons c cs ih =>
    rw [List.forall_mem_cons] at h
    rw [← ih h.2]
    constructor
    · intro hstands
      cases hstands with
      | later further => rwa [h.1, Bool.true_or] at further
    · intro hstands
      exact .later (by rwa [h.1, Bool.true_or])

/-- Nor in a word that does not begin as the alias does. -/
theorem Stands.of_word {c : Char} {cs : List Char} (hfirst : c ≠ (keeping extreme false).first)
    (h : ∀ d ∈ c :: cs, isWordChar d = true) (hstands : Stands extreme inWord (c :: cs ++ text)) :
    Stands extreme true text := by
  rw [List.forall_mem_cons] at h
  cases hstands with
  | here => exact absurd rfl hfirst
  | later further =>
    rw [h.1, Bool.true_or] at further
    exact (stands_true_append h.2).mp further

/-- What stands behind a word stands in the text. -/
theorem Stands.behind_word {c : Char} {cs : List Char} (h : ∀ d ∈ c :: cs, isWordChar d = true)
    (hstands : Stands extreme true text) : Stands extreme inWord (c :: cs ++ text) := by
  rw [List.forall_mem_cons] at h
  refine .later ?_
  rw [h.1, Bool.true_or]
  exact (stands_true_append h.2).mpr hstands

/-! ## Left alone -/

/-- An alias with its die has a boundary behind its word. -/
theorem rest?_bare_of_rest? {rest : List Char}
    (h : (keeping extreme withDie).rest? text = some rest) :
    ∃ more, (keeping extreme false).rest? text = some more := by
  cases withDie with
  | false => exact ⟨rest, h⟩
  | true =>
    have hdie : (keeping extreme true).withDie = true := by cases extreme <;> rfl
    have hothers : (keeping extreme true).others = (keeping extreme false).others := by
      cases extreme <;> rfl
    obtain ⟨more, rfl, hfound, -⟩ := of_rest?_eq_some h
    rw [hdie, if_pos rfl] at hfound
    refine ⟨more, rest?_bare_eq_some.mpr ⟨by rw [hothers], ?_⟩⟩
    -- The die is looked for behind a blank.
    obtain ⟨c, behind, rfl, hblank, -⟩ := of_afterDie?_eq_some hfound
    rw [atBoundary, isWordChar_of_isBlank hblank]
    rfl

/-- An alias changes nothing of a text in which its word does not stand: induction on the text. -/
theorem expandFrom_of_not_stands (h : ¬ Stands extreme inWord text) :
    (keeping extreme withDie).expandFrom inWord text = text := by
  induction text generalizing inWord with
  | nil => rw [expandFrom]
  | cons c text ih =>
    have hfirst : (keeping extreme withDie).first = (keeping extreme false).first := by
      rw [first_keeping, first_keeping]
    have hfurther := ih fun further => h (.later further)
    rw [expandFrom]
    split
    · next hc =>
      obtain ⟨rfl, hfree⟩ := hc
      obtain rfl : inWord = false := by simpa using hfree
      split
      · next rest hrest =>
        obtain ⟨more, hmore⟩ := rest?_bare_of_rest? hrest
        exact absurd (hfirst ▸ .here hmore) h
      · rw [letters_keeping extreme withDie _ List.mem_cons_self, Bool.true_or] at hfurther
        rw [hfurther]
    · rw [hfurther]

/-! ## Expanded -/

/-- Behind a word that goes on an alias is found before an expansion as after it. -/
theorem rest?_expandFrom_true (entry : Alias) (text : List Char) :
    (keeping extreme false).rest? (entry.expandFrom true text) =
      ((keeping extreme false).rest? text).map (entry.expandFrom true) := by
  have hbare : (keeping extreme false).withDie = false := by cases extreme <;> rfl
  have hothers : ∀ c ∈ (keeping extreme false).others, isWordChar c = true := fun c hc =>
    letters_keeping extreme false c (List.mem_cons_of_mem _ hc)
  rw [rest?_eq, rest?_eq, after?_expandFrom_true hothers, hbare]
  cases after? (keeping extreme false).others text with
  | none => rfl
  | some more =>
    simp only [Option.map_some, Option.bind_some, Bool.false_eq_true, if_false,
      atBoundary_expandFrom]
    split <;> rfl

/-- What stands in a text that a bare alias was expanded in is the other alias, and stood in the
    text before: induction along the expansion. -/
theorem Stands.of_expandFrom :
    Stands extreme inWord ((keeping extreme' false).expandFrom inWord text) →
      extreme ≠ extreme' ∧ Stands extreme inWord text := by
  have hdigit : '2' ≠ (keeping extreme false).first := by
    rw [first_keeping]
    cases extreme <;> decide
  have hletters := letters_keeping extreme' false
  fun_induction expandFrom (keeping extreme' false) inWord text with
  | case1 => exact fun h => absurd h nofun
  | case2 inWord c text hc rest hrest ih =>
    intro h
    obtain ⟨rfl, -⟩ := hc
    obtain ⟨rfl, -⟩ := rest?_bare_eq_some.mp hrest
    -- No alias stands in the meaning, so it stands behind it.
    have hbehind : Stands extreme true ((keeping extreme' false).expandFrom true rest) := by
      cases extreme' with
      | high => exact h.of_word hdigit (List.all_eq_true.mp rfl)
      | low => exact h.of_word hdigit (List.all_eq_true.mp rfl)
    obtain ⟨hne, hstood⟩ := ih hbehind
    exact ⟨hne, hstood.behind_word hletters⟩
  | case3 inWord c text hc hrest ih =>
    obtain ⟨rfl, -⟩ := hc
    rw [stands_cons]
    rintro (⟨-, hletter, hfound⟩ | further)
    · -- The same alias would have been found before.
      obtain rfl := first_inj hletter
      rw [rest?_expandFrom_true, hrest] at hfound
      cases hfound
    · rw [hletters _ List.mem_cons_self, Bool.true_or] at further
      obtain ⟨hne, hstood⟩ := ih further
      refine ⟨hne, .later ?_⟩
      rwa [hletters _ List.mem_cons_self, Bool.true_or]
  | case4 inWord c text hc ih =>
    rw [stands_cons]
    rintro (⟨rfl, rfl, hfound⟩ | further)
    · have hword := letters_keeping extreme false _ List.mem_cons_self
      rw [hword, Bool.true_or, rest?_expandFrom_true, Option.isSome_map] at hfound
      refine ⟨?_, stands_cons.mpr (Or.inl ⟨rfl, rfl, hfound⟩)⟩
      rintro rfl
      exact hc ⟨rfl, rfl⟩
    · obtain ⟨hne, hstood⟩ := ih further
      exact ⟨hne, .later hstood⟩

/-! ## Squeezed -/

/-- Behind a blank an alias may begin. -/
theorem free_of_isBlank {c : Char} (h : isBlank c = true) : (isWordChar c || c == '@') = false := by
  have hmark : c ≠ '@' := by
    rintro rfl
    cases h
  rw [isWordChar_of_isBlank h, beq_false_of_ne hmark]
  rfl

/-- Where a gap was passed, a squeezed text is empty or goes on with a space. -/
theorem squeezeFrom_true (text : List Char) :
    squeezeFrom true text = [] ∨ ∃ more, squeezeFrom true text = ' ' :: more := by
  induction text with
  | nil => exact Or.inl rfl
  | cons c text ih =>
    rw [squeezeFrom]
    cases isBlank c with
    | true => exact ih
    | false => exact Or.inr ⟨_, rfl⟩

/-- A word is found in a squeezed text just where it is in the text. -/
theorem after?_squeezeFrom {cs : List Char} (h : ∀ c ∈ cs, isWordChar c = true)
    (text : List Char) :
    after? cs (squeezeFrom false text) = (after? cs text).map (squeezeFrom false) := by
  induction cs generalizing text with
  | nil => rfl
  | cons w cs ih =>
    rw [List.forall_mem_cons] at h
    have hblank : ∀ c, isBlank c = true → w ≠ c := by
      rintro c hc rfl
      rw [isWordChar_of_isBlank hc] at h
      cases h.1
    cases text with
    | nil => rfl
    | cons c text =>
      rw [squeezeFrom]
      cases hc : isBlank c with
      | false =>
        rw [if_neg Bool.false_ne_true, if_neg Bool.false_ne_true, after?, after?]
        by_cases hw : w = c
        · rw [if_pos hw, if_pos hw, ih h.2]
        · rw [if_neg hw, if_neg hw]
          rfl
      | true =>
        rw [if_pos rfl, after?, if_neg (hblank c hc)]
        rcases squeezeFrom_true text with hnil | ⟨more, hmore⟩
        · rw [hnil]
          rfl
        · rw [hmore, after?, if_neg (hblank ' ' (by decide))]
          rfl

/-- A text ends a word where it does when it is squeezed. -/
theorem atBoundary_of_squeezeFrom (h : atBoundary (squeezeFrom false text) = true) :
    atBoundary text = true := by
  cases text with
  | nil => rfl
  | cons c text =>
    rw [squeezeFrom] at h
    cases hc : isBlank c with
    | true => simp [atBoundary, isWordChar_of_isBlank hc]
    | false =>
      rw [hc] at h
      exact h

/-- An alias that is found in a squeezed text is found in the text. -/
theorem rest?_of_squeezeFrom
    (h : ((keeping extreme false).rest? (squeezeFrom false text)).isSome = true) :
    ((keeping extreme false).rest? text).isSome = true := by
  have hothers : ∀ c ∈ (keeping extreme false).others, isWordChar c = true := fun c hc =>
    letters_keeping extreme false c (List.mem_cons_of_mem _ hc)
  obtain ⟨rest, hrest⟩ := Option.isSome_iff_exists.mp h
  obtain ⟨happend, hboundary⟩ := rest?_bare_eq_some.mp hrest
  have hafter := after?_squeezeFrom hothers text
  rw [happend, after?_others] at hafter
  obtain ⟨more, hmore, rfl⟩ := Option.map_eq_some_iff.mp hafter.symm
  exact Option.isSome_iff_exists.mpr ⟨more, rest?_bare_eq_some.mpr
    ⟨eq_append_of_after? hmore, atBoundary_of_squeezeFrom hboundary⟩⟩

/-- What stands in a squeezed text stands in the text, where a gap that was passed leaves the
    beginning free: induction on the text. -/
theorem Stands.of_squeezeFrom {gap : Bool} (h : Stands extreme inWord (squeezeFrom gap text)) :
    Stands extreme (inWord && !gap) text := by
  have hspace : ' ' ≠ (keeping extreme false).first := by
    rw [first_keeping]
    cases extreme <;> decide
  induction text generalizing inWord gap with
  | nil => cases h
  | cons c text ih =>
    rw [squeezeFrom] at h
    cases hc : isBlank c with
    | true =>
      rw [hc, if_pos rfl] at h
      have hstands := ih h
      rw [Bool.not_true, Bool.and_false] at hstands
      exact .later (by rwa [free_of_isBlank hc])
    | false =>
      rw [hc, if_neg Bool.false_ne_true] at h
      -- A character that is kept is looked at as before; only behind it may blanks be squeezed.
      have hkept : ∀ inWord, Stands extreme inWord (c :: squeezeFrom false text) →
          Stands extreme inWord (c :: text) := by
        intro inWord
        rw [stands_cons, stands_cons]
        rintro (⟨hfree, hletter, hfound⟩ | further)
        · exact Or.inl ⟨hfree, hletter, rest?_of_squeezeFrom hfound⟩
        · have hstands := ih further
          rw [Bool.not_false, Bool.and_true] at hstands
          exact Or.inr hstands
      cases gap with
      | false =>
        rw [if_neg Bool.false_ne_true] at h
        rw [Bool.not_false, Bool.and_true]
        exact hkept inWord h
      | true =>
        rw [if_pos rfl, stands_cons] at h
        rw [Bool.not_true, Bool.and_false]
        exact hkept false (h.resolve_left fun hhere => hspace hhere.2.1)

theorem Stands.of_trimLeft (h : Stands extreme false (trimLeft text)) :
    Stands extreme false text := by
  induction text with
  | nil => cases h
  | cons c text ih =>
    cases hc : isBlank c with
    | true =>
      rw [trimLeft, List.dropWhile_cons_of_pos hc] at h
      exact .later (by rw [free_of_isBlank hc]; exact ih h)
    | false =>
      rw [trimLeft, List.dropWhile_cons_of_neg (by simp [hc])] at h
      exact h

theorem Stands.of_squeeze (h : Stands extreme false (squeeze text)) :
    Stands extreme false text := by
  have htrimmed : Stands extreme false (trimLeft text) := Stands.of_squeezeFrom h
  exact htrimmed.of_trimLeft

end Alias

/-! ## All aliases -/

open Alias

/-- The expansion leaves a text alone if no alias stands in it. -/
theorem expandAll_of_not_stands {text : List Char} (h : ∀ extreme, ¬ Stands extreme false text) :
    expandAll text = text := by
  have hsame : ∀ extreme withDie, (keeping extreme withDie).expandFrom false text = text :=
    fun extreme _ => expandFrom_of_not_stands (h extreme)
  rw [expandAll_eq, expandDice, hsame, hsame, expandBare, hsame, hsame]

/-- In an expanded text no alias stands. -/
theorem not_stands_expandAll (text : List Char) (extreme : Extreme) :
    ¬ Stands extreme false (expandAll text) := by
  intro h
  rw [expandAll_eq, expandBare] at h
  obtain ⟨hlow, h⟩ := h.of_expandFrom
  obtain ⟨hhigh, -⟩ := h.of_expandFrom
  cases extreme with
  | high => exact hhigh rfl
  | low => exact hlow rfl

theorem squeezeFrom_squeezeFrom (gap : Bool) (text : List Char) :
    squeezeFrom false (squeezeFrom gap text) = squeezeFrom gap text := by
  induction text generalizing gap with
  | nil => rfl
  | cons c text ih =>
    have hspace : isBlank ' ' = true := by decide
    rw [squeezeFrom]
    cases hc : isBlank c with
    | true => exact ih true
    | false =>
      cases gap with
      | true => simp only [squeezeFrom, hc, hspace, ih, if_true, if_false, Bool.false_eq_true]
      | false => simp only [squeezeFrom, hc, ih, if_false, Bool.false_eq_true]

theorem squeeze_squeeze (text : List Char) : squeeze (squeeze text) = squeeze text := by
  rw [squeeze, trimLeft_squeeze, squeeze, squeezeFrom_squeezeFrom]

/-- **Expanding twice** is expanding once, whatever the text is. -/
theorem withoutAliases_twice (expression : String) :
    withoutAliases (withoutAliases expression) = withoutAliases expression := by
  have hlower : lower (withoutAliases expression).toList = (withoutAliases expression).toList :=
    lower_of_small small_of_mem_withoutAliases
  rw [withoutAliases_eq (withoutAliases expression), hlower, withoutAliases_eq,
    String.toList_ofList, expandAll_of_not_stands, squeeze_squeeze]
  exact fun extreme h => not_stands_expandAll _ extreme h.of_squeeze

end Tabletop
