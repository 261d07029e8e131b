/-
  What the expansion of aliases does to an expression, apart from the aliases.

  1. **Names** — an alias and its meaning hold no mark of a variable, and neither an alias nor a
     blank stands in a name: every text on the way to the expanded one mentions the same names.
  2. **Notation** — an ASCII text in which no alias stands makes the same glyphs after the expansion
     as before it: what is left of the expansion is lower case and squeezing, and glyphs do not tell
     letter case or the length of a gap.
-/
import Mathlib
import Tabletop.Proofs.Evaluation.Listing
import Tabletop.Proofs.Notation.Blanks
import Tabletop.Proofs.Text.Expanded

namespace Tabletop

open Text Alias

/-! ## Names -/

/-- What names are written with are word characters, the four letters above ASCII too. -/
theorem isWordChar_of_isVariableChar {c : Char} (h : isVariableChar c = true) :
    isWordChar c = true := by
  rcases Nat.lt_or_ge c.toNat 128 with hlow | hhigh
  · exact forall_ascii (P := fun c => isVariableChar c = true → isWordChar c = true) (by decide)
      hlow h
  · have hall : caselessLetters.all isWordChar = true := by decide +kernel
    exact List.all_eq_true.mp hall c (mem_caselessLetters h hhigh)

theorem isVariableChar_of_isBlank {c : Char} (h : isBlank c = true) : isVariableChar c = false :=
  Bool.eq_false_iff.mpr fun hname => by
    have hword := isWordChar_of_isVariableChar hname
    rw [isWordChar_of_isBlank h] at hword
    cases hword

theorem isVariableChar_toLower {c : Char} (h : c.toNat < 128) :
    isVariableChar c.toLower = isVariableChar c :=
  forall_ascii (P := fun c => isVariableChar c.toLower = isVariableChar c) (by decide) h

/-- Only the mark of a variable mentions one. -/
theorem mentions_of_ne {c : Char} (h : c ≠ '@') (text : List Char) :
    mentions (c :: text) = mentions text :=
  if_neg fun hc => h hc.1

/-- A text that goes on as another one does mentions it too. -/
theorem mentions_cons_congr {text other : List Char} (c : Char)
    (hnames : mentions text = mentions other)
    (hrun : c = '@' → text.takeWhile isVariableChar = other.takeWhile isVariableChar) :
    mentions (c :: text) = mentions (c :: other) := by
  by_cases hc : c = '@'
  · rw [mentions, mentions, hrun hc, hnames]
  · rw [mentions_of_ne hc, mentions_of_ne hc, hnames]

/-- A text without marks in front mentions nothing. -/
theorem mentions_append {front : List Char} (h : '@' ∉ front) (text : List Char) :
    mentions (front ++ text) = mentions text := by
  induction front with
  | nil => rfl
  | cons c front ih =>
    rw [List.mem_cons, not_or] at h
    rw [List.cons_append, mentions_of_ne (Ne.symm h.1), ih h.2]

theorem mentions_trimLeft (text : List Char) : mentions (trimLeft text) = mentions text := by
  have hmark : '@' ∉ text.takeWhile isBlank := fun hmem =>
    absurd (List.mem_takeWhile_imp hmem) (by decide)
  conv_rhs => rw [← List.takeWhile_append_dropWhile (p := isBlank) (l := text)]
  rw [mentions_append hmark, trimLeft]

/-- A name ends before a blank, so squeezing blanks leaves it as it is. -/
theorem takeWhile_squeezeFrom (text : List Char) :
    (squeezeFrom false text).takeWhile isVariableChar = text.takeWhile isVariableChar := by
  induction text with
  | nil => rfl
  | cons c text ih =>
    rw [squeezeFrom]
    cases hc : isBlank c with
    | true =>
      rw [if_pos rfl, List.takeWhile_cons_of_neg (by simp [isVariableChar_of_isBlank hc])]
      rcases squeezeFrom_true text with hnil | ⟨more, hmore⟩
      · rw [hnil, List.takeWhile_nil]
      · rw [hmore, List.takeWhile_cons_of_neg (by decide)]
    | false =>
      rw [if_neg Bool.false_ne_true, if_neg Bool.false_ne_true, List.takeWhile_cons,
        List.takeWhile_cons, ih]

/-- Squeezing blanks leaves what is mentioned: induction on the text. -/
theorem mentions_squeezeFrom (gap : Bool) (text : List Char) :
    mentions (squeezeFrom gap text) = mentions text := by
  induction text generalizing gap with
  | nil => rfl
  | cons c text ih =>
    rw [squeezeFrom]
    cases hc : isBlank c with
    | true =>
      have hmark : c ≠ '@' := by
        rintro rfl
        cases hc
      rw [if_pos rfl, ih, mentions_of_ne hmark]
    | false =>
      have hkept : mentions (c :: squeezeFrom false text) = mentions (c :: text) :=
        mentions_cons_congr c (ih false) fun _ => takeWhile_squeezeFrom text
      cases gap with
      | true => rw [if_neg Bool.false_ne_true, if_pos rfl, mentions_of_ne (by decide), hkept]
      | false => rw [if_neg Bool.false_ne_true, if_neg Bool.false_ne_true, hkept]

theorem mentions_squeeze (text : List Char) : mentions (squeeze text) = mentions text := by
  rw [squeeze, mentions_squeezeFrom, mentions_trimLeft]

/-- What an alias takes of a text holds no mark, if its word does not. -/
theorem Alias.mentions_of_rest? {entry : Alias} {text rest : List Char}
    (hothers : '@' ∉ entry.others)
    (h : entry.rest? text = some rest) : mentions text = mentions rest := by
  obtain ⟨more, rfl, hfound, -⟩ := of_rest?_eq_some h
  rw [mentions_append hothers]
  split at hfound
  · obtain ⟨c, behind, rfl, hblank, hdie⟩ := of_afterDie?_eq_some hfound
    have hmark : c ≠ '@' := by
      rintro rfl
      cases hblank
    rw [mentions_of_ne hmark, ← mentions_trimLeft, trimLeft, hdie, mentions_append (by decide)]
  · rw [Option.some.inj hfound]

/-- An alias brings no name and takes none: induction along the expansion. -/
theorem Alias.mentions_expandFrom {entry : Alias} (hfirst : entry.first ≠ '@')
    (hothers : '@' ∉ entry.others) (hmeaning : '@' ∉ entry.meaning) (inWord : Bool)
    (text : List Char) : mentions (entry.expandFrom inWord text) = mentions text := by
  fun_induction expandFrom entry inWord text with
  | case1 => rfl
  | case2 inWord c text hc rest hrest ih =>
    rw [mentions_append hmeaning, ih, hc.1, mentions_of_ne hfirst, mentions_of_rest? hothers hrest]
  | case3 inWord c text hc hrest ih =>
    exact mentions_cons_congr c ih fun hat => absurd (hc.1.symm.trans hat) hfirst
  | case4 inWord c text hc ih =>
    refine mentions_cons_congr c ih fun hat => ?_
    subst hat
    exact takeWhile_expandFrom (fun _ => isWordChar_of_isVariableChar) entry text

/-- Expanding aliases leaves what is mentioned, for none is expanded in a name. -/
theorem mentions_expandAll (text : List Char) : mentions (expandAll text) = mentions text := by
  have hkeeping : ∀ extreme withDie (text : List Char),
      mentions ((keeping extreme withDie).expandFrom false text) = mentions text := by
    intro extreme withDie text
    apply mentions_expandFrom
    · cases extreme <;> cases withDie <;> decide
    · cases extreme <;> cases withDie <;> decide
    · cases extreme <;> cases withDie <;> decide
  rw [expandAll_eq, expandBare, hkeeping, hkeeping, expandDice, hkeeping, hkeeping]

/-- An ASCII text mentions the same names, in lower case. -/
theorem mentions_map_toLower {text : List Char} (h : ∀ c ∈ text, c.toNat < 128) :
    mentions (text.map Char.toLower) = (mentions text).map fun name => name.map Char.toLower := by
  induction text with
  | nil => rfl
  | cons c text ih =>
    rw [List.forall_mem_cons] at h
    have hmark : c.toLower = '@' ↔ c = '@' :=
      forall_ascii (P := fun c => c.toLower = '@' ↔ c = '@') (by decide) h.1
    have hrun : (text.map Char.toLower).takeWhile isVariableChar =
        (text.takeWhile isVariableChar).map Char.toLower :=
      takeWhile_map_toLower (fun _ => isVariableChar_toLower) h.2
    rw [List.map_cons, mentions, mentions, hrun, ih h.2]
    simp only [hmark, ne_eq, List.map_eq_nil_iff]
    split <;> rfl

/-- Names are characters of the text that mentions them. -/
theorem mem_of_mem_mentions {text name : List Char} (h : name ∈ mentions text) :
    ∀ c ∈ name, c ∈ text := by
  induction text with
  | nil => cases h
  | cons d text ih =>
    have hlater : name ∈ mentions text → ∀ c ∈ name, c ∈ d :: text := fun h c hc =>
      List.mem_cons_of_mem d (ih h c hc)
    rw [mentions] at h
    split at h
    · rcases List.mem_cons.mp h with rfl | h
      · exact fun c hc => List.mem_cons_of_mem d ((List.takeWhile_prefix _).subset hc)
      · exact hlater h
    · exact hlater h

/-- The expansion leaves the variables of an ASCII expression as they are. -/
theorem variablesOf_withoutAliases {expression : String}
    (h : ∀ c ∈ expression.toList, c.toNat < 128) :
    variablesOf (withoutAliases expression) = variablesOf expression := by
  have hupper : ∀ name ∈ mentions expression.toList,
      String.ofList (upper (name.map Char.toLower)) = String.ofList (upper name) := by
    intro name hname
    rw [upper_map_toLower fun c hc => h c (mem_of_mem_mentions hname c hc)]
  rw [variablesOf, variablesOf, withoutAliases_eq, String.toList_ofList, mentions_squeeze,
    mentions_expandAll, lower_of_ascii h, mentions_map_toLower h, List.map_map]
  exact congrArg List.eraseDups (List.map_congr_left hupper)

/-! ## Notation -/

/-- An alias stands in an expression: its word in any letter case, with no word character and no
    mark of a variable before it and no word character behind it. -/
def NamesAlias (expression : String) : Prop :=
  ∃ extreme front written back, expression.toList = front ++ (written ++ back) ∧
    lower written = word extreme ∧ StandsFree front back

theorem isWordChar_toLower {c : Char} (h : c.toNat < 128) :
    isWordChar c.toLower = isWordChar c :=
  forall_ascii (P := fun c => isWordChar c.toLower = isWordChar c) (by decide) h

theorem atBoundary_map_toLower {text : List Char} (h : ∀ c ∈ text, c.toNat < 128) :
    atBoundary (text.map Char.toLower) = atBoundary text := by
  cases text with
  | nil => rfl
  | cons c text =>
    rw [List.map_cons, atBoundary, atBoundary, isWordChar_toLower (h c List.mem_cons_self)]

/-- Lowering ASCII letters changes nothing about what a text leaves free. -/
theorem endsFree_map_toLower {text : List Char} (h : ∀ c ∈ text, c.toNat < 128) :
    EndsFree (text.map Char.toLower) ↔ EndsFree text := by
  have hfree : ∀ c ∈ text, (isWordChar c.toLower = false ∧ c.toLower ≠ '@') ↔
      (isWordChar c = false ∧ c ≠ '@') := fun c hc =>
    forall_ascii (P := fun c => (isWordChar c.toLower = false ∧ c.toLower ≠ '@') ↔
      (isWordChar c = false ∧ c ≠ '@')) (by decide) (h c hc)
  rw [EndsFree, EndsFree, List.getLast?_map]
  constructor
  · rintro ⟨d, hd, hlast⟩
    obtain ⟨c, hc, rfl⟩ := Option.map_eq_some_iff.mp hd
    exact ⟨c, hc, (hfree c (List.mem_of_getLast? hc)).mp hlast⟩
  · rintro ⟨c, hc, hlast⟩
    exact ⟨c.toLower, Option.map_eq_some_iff.mpr ⟨c, hc, rfl⟩,
      (hfree c (List.mem_of_getLast? hc)).mpr hlast⟩

/-- An alias stands in an ASCII expression just when it stands in the lower case. -/
theorem namesAlias_iff {expression : String} (h : ∀ c ∈ expression.toList, c.toNat < 128) :
    NamesAlias expression ↔
      ∃ extreme, Stands extreme false (expression.toList.map Char.toLower) := by
  constructor
  · rintro ⟨extreme, front, written, back, hsplit, hwritten, hfree, hback⟩
    rw [hsplit] at h ⊢
    simp only [List.forall_mem_append] at h
    refine ⟨extreme, stands_iff.mpr ⟨front.map Char.toLower, back.map Char.toLower, ?_, ?_, ?_⟩⟩
    · rw [List.map_append, List.map_append, ← hwritten, lower_of_ascii h.2.1]
    · rw [atBoundary_map_toLower h.2.2, hback]
    · rcases hfree with rfl | hfree
      · exact Or.inl ⟨rfl, rfl⟩
      · exact Or.inr ((endsFree_map_toLower h.1).mpr hfree)
  · rintro ⟨extreme, hstands⟩
    obtain ⟨front, back, hsplit, hback, hfree⟩ := stands_iff.mp hstands
    obtain ⟨front, later, hexpression, rfl, hlater⟩ := List.map_eq_append_iff.mp hsplit
    obtain ⟨written, back, rfl, hwritten, rfl⟩ := List.map_eq_append_iff.mp hlater
    rw [hexpression] at h
    simp only [List.forall_mem_append] at h
    refine ⟨extreme, front, written, back, hexpression, ?_, ?_, ?_⟩
    · rw [lower_of_ascii h.2.1, hwritten]
    · rcases hfree with ⟨hnil, -⟩ | hfree
      · exact Or.inl (List.map_eq_nil_iff.mp hnil)
      · exact Or.inr ((endsFree_map_toLower h.1).mp hfree)
    · rw [← atBoundary_map_toLower h.2.2, hback]

/-- Where no alias stands, an ASCII expression makes the same glyphs without its aliases. -/
theorem glyphs_withoutAliases {expression : String} (h : ∀ c ∈ expression.toList, c.toNat < 128)
    (hnone : ¬ NamesAlias expression) :
    glyphs (withoutAliases expression).toList = glyphs expression.toList := by
  have hsmall : ∀ c ∈ (withoutAliases expression).toList, Small c := small_of_mem_withoutAliases
  rw [withoutAliases_eq, String.toList_ofList] at hsmall ⊢
  rw [glyphs_squeeze hsmall, lower_of_ascii h, glyphs_of_ascii h, expandAll_of_not_stands]
  exact fun extreme hstands => hnone ((namesAlias_iff h).mpr ⟨extreme, hstands⟩)

/-- So it is read as the same tokens. -/
theorem readTokens_withoutAliases {expression : String}
    (h : ∀ c ∈ expression.toList, c.toNat < 128) (hnone : ¬ NamesAlias expression)
    (strict : Bool) :
    readTokens strict (withoutAliases expression) = readTokens strict expression := by
  have hglyphs := glyphs_withoutAliases h hnone
  refine readTokens_congr ?_ ?_ strict
  · rw [pieces, pieces, hglyphs]
  · rw [← map_char_glyphs, ← map_char_glyphs, hglyphs]

/-- **The expansion of aliases is done after once, and touches nothing but aliases.**  Expanding any
    text twice is expanding it once; an ASCII expression has the same variables without its aliases;
    and if no alias stands in it, it is read as the same tokens. -/
theorem withoutAliases_settles (expression : String) :
    withoutAliases (withoutAliases expression) = withoutAliases expression ∧
      ((∀ c ∈ expression.toList, c.toNat < 128) →
        variablesOf (withoutAliases expression) = variablesOf expression ∧
          (¬ NamesAlias expression → ∀ strict,
            readTokens strict (withoutAliases expression) = readTokens strict expression)) :=
  ⟨withoutAliases_twice expression, fun h =>
    ⟨variablesOf_withoutAliases h, readTokens_withoutAliases h⟩⟩

/-- Aliases inside of names and of words, none of which stands by itself. -/
theorem withoutAliases_settles_names :
    withoutAliases "Radv  @Adv2 +1D20dis_" = "radv @adv2 +1d20dis_" ∧
      withoutAliases (withoutAliases "Radv  @Adv2 +1D20dis_") =
        withoutAliases "Radv  @Adv2 +1D20dis_" ∧
      variablesOf (withoutAliases "Radv  @Adv2 +1D20dis_") =
        variablesOf "Radv  @Adv2 +1D20dis_" ∧
      ∀ strict, readTokens strict (withoutAliases "Radv  @Adv2 +1D20dis_") =
        readTokens strict "Radv  @Adv2 +1D20dis_" := by
  have hascii : ∀ c ∈ "Radv  @Adv2 +1D20dis_".toList, c.toNat < 128 := by simp
  have hnone : ¬ NamesAlias "Radv  @Adv2 +1D20dis_" := by
    rw [namesAlias_iff hascii]
    rintro ⟨extreme, hstands⟩
    revert hstands
    cases extreme <;> decide
  obtain ⟨htwice, hrest⟩ := withoutAliases_settles "Radv  @Adv2 +1D20dis_"
  exact ⟨by decide +kernel, htwice, (hrest hascii).1, (hrest hascii).2 hnone⟩

end Tabletop
