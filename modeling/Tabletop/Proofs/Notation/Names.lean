/-
  Where the names of variables end.

  1. **Marks of blanks** — these are counted along the text as it was given.  Lower case has one
     character more for each capital i with a dot, so behind so many of these letters the marks of
     blanks come so many glyphs too early.
  2. **Names** — where none of these letters comes before, a name ends where it ends in the lower
     case of the text; behind one of them a blank can be overlooked, or seen inside a name.
-/
import Mathlib.Data.List.Count
import Tabletop.Proofs.Notation.Glyphs
import Tabletop.Proofs.Text.Lowering

namespace Tabletop

open Text

/-! ## Marks of blanks -/

theorem zip_append (cs more : List Char) (marks : List Bool) :
    Glyph.zip (cs ++ more) marks = Glyph.zip cs marks ++ Glyph.zip more (marks.drop cs.length) := by
  induction cs generalizing marks with
  | nil => rfl
  | cons c cs ih =>
    cases marks with
    | nil =>
      rw [List.cons_append, Glyph.zip, Glyph.zip, ih, List.drop_nil, List.drop_nil,
        List.cons_append]
    | cons mark marks =>
      rw [List.cons_append, Glyph.zip, Glyph.zip, ih, List.length_cons, List.drop_succ_cons,
        List.cons_append]

/-- Each character of a text has its mark, but for blanks. -/
theorem length_wordMarks (afterBlank : Bool) (text : List Char) :
    (wordMarks afterBlank text).length = (withoutBlanks text).length := by
  induction text generalizing afterBlank with
  | nil => rfl
  | cons c rest ih =>
    cases hc : isBlank c with
    | true => rw [wordMarks_of_blank hc, ih, withoutBlanks_of_blank hc]
    | false =>
      rw [wordMarks_of_not_blank hc, List.length_cons, ih, withoutBlanks_of_not_blank hc,
        List.length_cons]

/-- Behind a character that is no blank the marks begin anew. -/
theorem wordMarks_append {d : Char} (hd : isBlank d = false) (afterBlank : Bool)
    (left right : List Char) :
    ∃ mark, wordMarks afterBlank (left ++ d :: right) =
      wordMarks afterBlank left ++ mark :: wordMarks false right := by
  induction left generalizing afterBlank with
  | nil => exact ⟨afterBlank, wordMarks_of_not_blank hd afterBlank right⟩
  | cons c rest ih =>
    cases hc : isBlank c with
    | true =>
      obtain ⟨mark, hmark⟩ := ih true
      exact ⟨mark, by rw [List.cons_append, wordMarks_of_blank hc, wordMarks_of_blank hc, hmark]⟩
    | false =>
      obtain ⟨mark, hmark⟩ := ih false
      refine ⟨mark, ?_⟩
      rw [List.cons_append, wordMarks_of_not_blank hc, wordMarks_of_not_blank hc, hmark,
        List.cons_append]

/-- A character that keeps the letters on its sides apart divides the normal form. -/
theorem normalForm_append {d : Char} (h : Apart d) (hd : isBlank d = false)
    (left right : List Char) :
    normalForm (left ++ d :: right) = normalForm left ++ d :: normalForm right := by
  rw [normalForm, lower_append h, withoutBlanks, List.filter_append, ← withoutBlanks,
    ← withoutBlanks, withoutBlanks_of_not_blank hd]
  rfl

/-! ## Lower case without blanks -/

/-- Blanks are lowered to blanks, and nothing else is. -/
theorem withoutBlanks_lowerHere (afterCased : Bool) (c : Char) (rest : List Char) :
    withoutBlanks (lowerHere afterCased c rest) =
      if isBlank c then [] else lowerHere afterCased c rest := by
  generalize hhere : lowerHere afterCased c rest = here
  cases hhere ▸ lowering_lowerHere afterCased c rest with
  | ascii low =>
    rw [withoutBlanks, List.filter_cons, isBlank_toLower low]
    cases isBlank c <;> rfl
  | kelvin sign =>
    subst sign
    rfl
  | dotted letter =>
    subst letter
    rfl
  | above high ne above blank =>
    rw [withoutBlanks, List.filter_cons, blank]
    cases isBlank c <;> rfl

theorem withoutBlanks_lowerFrom_cons (afterCased : Bool) (c : Char) (rest : List Char) :
    withoutBlanks (lowerFrom afterCased (c :: rest)) =
      (if isBlank c then [] else lowerHere afterCased c rest) ++
        withoutBlanks (lowerFrom (if isCaseIgnorable c then afterCased else isCased c) rest) := by
  rw [lowerFrom, withoutBlanks, List.filter_append, ← withoutBlanks, ← withoutBlanks,
    withoutBlanks_lowerHere]

/-- Lower case has one character more for each capital i with a dot. -/
theorem length_lowerHere (afterCased : Bool) (c : Char) (rest : List Char) :
    (lowerHere afterCased c rest).length = 1 + [c].count dottedI := by
  generalize hhere : lowerHere afterCased c rest = here
  cases hhere ▸ lowering_lowerHere afterCased c rest with
  | ascii low =>
    have hne : c ≠ dottedI := by
      rintro rfl
      exact absurd low (by decide)
    simp [hne]
  | kelvin sign =>
    subst sign
    rfl
  | dotted letter =>
    subst letter
    rfl
  | above high ne above blank => simp [ne]

/-- The normal form is longer than the text without its blanks by one character for each dotted
    capital I. -/
theorem length_normalForm (text : List Char) :
    (normalForm text).length = (withoutBlanks text).length + text.count dottedI := by
  have hfrom : ∀ afterCased : Bool, (withoutBlanks (lowerFrom afterCased text)).length =
      (withoutBlanks text).length + text.count dottedI := by
    induction text with
    | nil => exact fun _ => rfl
    | cons c rest ih =>
      intro afterCased
      have hcount : ([c] ++ rest).count dottedI = [c].count dottedI + rest.count dottedI :=
        List.count_append
      rw [List.singleton_append] at hcount
      rw [withoutBlanks_lowerFrom_cons, List.length_append, ih, hcount]
      cases hc : isBlank c with
      | true =>
        have hne : c ≠ dottedI := by
          rintro rfl
          exact absurd hc (by decide)
        rw [if_pos rfl, withoutBlanks_of_blank hc]
        simp [hne]
      | false =>
        rw [if_neg Bool.false_ne_true, length_lowerHere, withoutBlanks_of_not_blank hc,
          List.length_cons]
        omega
  exact hfrom false

/-! ## Glyphs behind a mark -/

theorem zip_cons (c : Char) (cs : List Char) (marks : List Bool) :
    Glyph.zip (c :: cs) marks = ⟨c, marks.headD false⟩ :: Glyph.zip cs marks.tail := by
  cases marks <;> rfl

/-- The glyphs behind a mark that so many capitals i with a dot stand before. -/
def glyphsBehind (dots : Nat) (text : List Char) : List Glyph :=
  Glyph.zip (normalForm text) ((wordMarks false text).drop dots)

/-- The mark of a variable is a glyph, and behind it stand the glyphs of the text there, their marks
    displaced by the dotted capitals in front. -/
theorem glyphs_of_mark (left right : List Char) :
    ∃ before mark, before.length = (normalForm left).length ∧
      glyphs (left ++ '@' :: right) =
        before ++ ⟨'@', mark⟩ :: glyphsBehind (left.count dottedI) right := by
  have hblank : isBlank '@' = false := by decide
  obtain ⟨mark, hmarks⟩ := wordMarks_append hblank false (trimLeft left) right
  have hlength : (normalForm left).length =
      (wordMarks false (trimLeft left)).length + left.count dottedI := by
    rw [length_normalForm, length_wordMarks, withoutBlanks_trimLeft]
  have hglyphs : glyphs (left ++ '@' :: right) =
      Glyph.zip (normalForm left) (wordMarks false (trimLeft left) ++ mark :: wordMarks false right)
        ++ ⟨'@', ((mark :: wordMarks false right).drop (left.count dottedI)).headD false⟩ ::
          glyphsBehind (left.count dottedI) right := by
    rw [glyphs, normalForm_append apart_mark hblank, trimLeft_append hblank, hmarks, zip_append,
      hlength, List.drop_length_add_append, zip_cons, List.tail_drop, List.drop_succ_cons,
      glyphsBehind]
  exact ⟨_, _, Glyph.length_zip (normalForm left) _, hglyphs⟩

/-- Behind a blank no name goes on. -/
theorem takeWhile_zip_true (afterCased : Bool) (text : List Char) :
    (Glyph.zip (withoutBlanks (lowerFrom afterCased text)) (wordMarks true text)).takeWhile
      (·.carriesName) = [] := by
  induction text generalizing afterCased with
  | nil => rfl
  | cons c rest ih =>
    rw [withoutBlanks_lowerFrom_cons]
    cases hc : isBlank c with
    | true => rw [if_pos rfl, List.nil_append, wordMarks_of_blank hc, ih]
    | false =>
      rw [if_neg Bool.false_ne_true, wordMarks_of_not_blank hc]
      have hlength := length_lowerHere afterCased c rest
      cases hhere : lowerHere afterCased c rest with
      | nil =>
        rw [hhere, List.length_nil] at hlength
        omega
      | cons d ds =>
        rw [List.cons_append, zip_cons, List.takeWhile_cons_of_neg (by simp [Glyph.carriesName])]

/-- Where marks lie on the glyphs that they were taken for, a name ends in the glyphs where it ends
    in the text: induction on the text. -/
theorem takeWhile_zip_false (afterCased : Bool) (text : List Char) :
    ((Glyph.zip (withoutBlanks (lowerFrom afterCased text)) (wordMarks false text)).takeWhile
      (·.carriesName)).map (·.char) = (lowerFrom afterCased text).takeWhile isNameChar := by
  induction text generalizing afterCased with
  | nil => rfl
  | cons c rest ih =>
    rw [withoutBlanks_lowerFrom_cons, lowerFrom]
    generalize hhere : lowerHere afterCased c rest = here
    generalize (if isCaseIgnorable c then afterCased else isCased c) = afterCased'
    -- Of one character that is a blank or not as it was before.
    have hone : ∀ d : Char, isBlank d = isBlank c →
        ((Glyph.zip ((if isBlank c then [] else [d]) ++ withoutBlanks (lowerFrom afterCased' rest))
          (wordMarks false (c :: rest))).takeWhile (·.carriesName)).map (·.char) =
            ([d] ++ lowerFrom afterCased' rest).takeWhile isNameChar := by
      intro d hd
      rw [List.singleton_append]
      cases hc : isBlank c with
      | true =>
        have hname : isNameChar d = false := by
          refine Bool.eq_false_iff.mpr fun hname => ?_
          rw [isBlank_of_isNameChar hname, hc] at hd
          cases hd
        rw [if_pos rfl, List.nil_append, wordMarks_of_blank hc, takeWhile_zip_true,
          List.takeWhile_cons_of_neg (by simp [hname]), List.map_nil]
      | false =>
        rw [if_neg Bool.false_ne_true, List.singleton_append, wordMarks_of_not_blank hc, zip_cons]
        cases hname : isNameChar d with
        | true =>
          rw [List.takeWhile_cons_of_pos (by simp [Glyph.carriesName, hname]),
            List.takeWhile_cons_of_pos hname, List.map_cons]
          exact congrArg (d :: ·) (ih afterCased')
        | false =>
          rw [List.takeWhile_cons_of_neg (by simp [Glyph.carriesName, hname]),
            List.takeWhile_cons_of_neg (by simp [hname]), List.map_nil]
    cases hhere ▸ lowering_lowerHere afterCased c rest with
    | ascii low => exact hone _ (isBlank_toLower low)
    | kelvin sign =>
      subst sign
      exact hone 'k' rfl
    | dotted letter =>
      subst letter
      -- The dot above the letter ends a name.
      rw [wordMarks_of_not_blank (by decide), if_neg (by decide), List.cons_append, zip_cons,
        List.cons_append, zip_cons]
      rfl
    | above high ne above blank => exact hone _ blank

/-- A name ends in the glyphs behind a mark where it ends in the lower case of the text, if no
    capital i with a dot stands before. -/
theorem takeWhile_glyphsBehind (text : List Char) :
    ((glyphsBehind 0 text).takeWhile (·.carriesName)).map (·.char) =
      (lower text).takeWhile isNameChar :=
  takeWhile_zip_false false text

/-! ## Variables of a text -/

/-- Where the normal form of a text has a mark, the text has one. -/
theorem of_normalForm_eq_mark {text before more : List Char}
    (h : normalForm text = before ++ '@' :: more) :
    ∃ left right, text = left ++ '@' :: right ∧ normalForm left = before := by
  obtain ⟨front, back, hlower, hfront, hback⟩ := List.filter_eq_append_iff.mp h
  obtain ⟨blanks, later, rfl, hblanks, -, hlater⟩ := List.filter_eq_cons_iff.mp hback
  rw [← List.append_assoc] at hlower
  obtain ⟨left, right, rfl, rfl⟩ := of_mark_suffix_lowerFrom false ⟨_, hlower.symm⟩
  refine ⟨left, right, rfl, ?_⟩
  rw [lower_append apart_mark] at hlower
  rw [normalForm, withoutBlanks, List.append_cancel_right hlower, List.filter_append, hfront,
    List.filter_eq_nil_iff.mpr hblanks, List.append_nil]

/-- **The variables of a text** are cut at its marks, one at each. -/
theorem mem_tokens_named {text : List Char} {t : Token} :
    t ∈ tokens text ∧ t.kind = .named ↔
      ∃ left right, text = left ++ '@' :: right ∧
        t = Token.ofMark (glyphsBehind (left.count dottedI) right) (normalForm left).length := by
  constructor
  · rintro ⟨ht, hkind⟩
    have hpiece : .token t ∈ pieces text := by
      rw [tokens_eq, List.mem_append, List.mem_singleton] at ht
      rcases ht with ht | rfl
      · exact mem_pieces_of_mem_cutTokens ht
      · cases hkind
    obtain ⟨before, mark, more, hglyphs, rfl⟩ := mark_of_named false 0 _ t hpiece hkind
    have hnormal := map_char_glyphs text
    rw [hglyphs, List.map_append, List.map_cons] at hnormal
    obtain ⟨left, right, rfl, hleft⟩ := of_normalForm_eq_mark hnormal.symm
    obtain ⟨before', mark', hlength, hglyphs'⟩ := glyphs_of_mark left right
    have hplace : before.length = (normalForm left).length := by rw [hleft, List.length_map]
    refine ⟨left, right, rfl, ?_⟩
    -- Both cuts of the glyphs are at the same place.
    obtain ⟨rfl, hrest⟩ := List.append_inj (hglyphs.symm.trans hglyphs')
      (hplace.trans hlength.symm)
    rw [(List.cons.inj hrest).2, Nat.zero_add, hplace]
  · rintro ⟨left, right, rfl, rfl⟩
    obtain ⟨before, mark, hlength, hglyphs⟩ := glyphs_of_mark left right
    have hpiece := named_of_mark false 0 _ hglyphs
    rw [Nat.zero_add, hlength] at hpiece
    refine ⟨?_, rfl⟩
    rw [tokens_eq]
    exact List.mem_append_left _ (List.mem_filterMap.mpr ⟨_, hpiece, rfl⟩)

/-- Behind a capital i with a dot, a blank does not end a name where it should: with one such letter
    before the mark it is seen too early, with more of them not at all. -/
theorem name_ofMark_ne {dots : Nat} (h : dots ≠ 0) (position : Nat) :
    (Token.ofMark (glyphsBehind dots "a b".toList) position).text.toList ≠
      '@' :: (lower "a b".toList).takeWhile isNameChar := by
  obtain ⟨more, rfl⟩ := Nat.exists_eq_succ_of_ne_zero h
  rw [Token.ofMark, String.toList_ofList]
  cases more with
  | zero => decide
  | succ more =>
    have hmarks : (wordMarks false "a b".toList).drop (more + 1 + 1) = [] :=
      List.drop_eq_nil_of_le (Nat.le_add_left 2 more)
    rw [glyphsBehind, hmarks]
    decide

/-- **Names of variables.**  Each variable that is cut from a text stands at a mark, and each mark
    has one.  Its text is the mark with the longest run of characters of names that follows in the
    lower case of the text, blanks in their places, if no capital i with a dot stands before the
    mark.  Where the text has such a letter, there are names that end elsewhere when they are put
    behind it. -/
theorem tokens_names (text : List Char) :
    (∀ t ∈ tokens text, t.kind = .named →
      ∃ left right, text = left ++ '@' :: right ∧
        lower text = lower left ++ '@' :: lower right ∧
        t.position = (normalForm left).length ∧
        (dottedI ∉ left → t.text.toList = '@' :: (lower right).takeWhile isNameChar)) ∧
      (∀ left right, text = left ++ '@' :: right →
        ∃ t ∈ tokens text, t.kind = .named ∧ t.position = (normalForm left).length) ∧
      (dottedI ∈ text →
        ∃ right, ∃ t ∈ tokens (text ++ '@' :: right),
          t.kind = .named ∧ t.position = (normalForm text).length ∧
            t.text.toList ≠ '@' :: (lower right).takeWhile isNameChar) := by
  refine ⟨fun t ht hkind => ?_, fun left right hsplit => ?_, fun hdotted => ?_⟩
  · obtain ⟨left, right, rfl, rfl⟩ := mem_tokens_named.mp ⟨ht, hkind⟩
    refine ⟨left, right, rfl, lower_append apart_mark left right, rfl, fun hnone => ?_⟩
    rw [Token.ofMark, String.toList_ofList, List.count_eq_zero.mpr hnone, takeWhile_glyphsBehind]
  · obtain ⟨ht, hkind⟩ := mem_tokens_named.mpr ⟨left, right, hsplit, rfl⟩
    exact ⟨_, ht, hkind, rfl⟩
  · obtain ⟨ht, hkind⟩ := mem_tokens_named.mpr ⟨text, "a b".toList, rfl, rfl⟩
    have hdots : text.count dottedI ≠ 0 := fun hzero => List.count_eq_zero.mp hzero hdotted
    exact ⟨_, _, ht, hkind, rfl, name_ofMark_ne hdots _⟩

/-- The counts of two pools, of which the first ends at a blank; and a text that some name ends
    elsewhere behind. -/
theorem tokens_names_pools :
    (∃ t ∈ tokens "dh a@Adv d@dis".toList, t.kind = .named ∧ t.text = "@adv" ∧
      ∃ left right, "dh a@Adv d@dis".toList = left ++ '@' :: right ∧
        t.position = (normalForm left).length ∧
        t.text.toList = '@' :: (lower right).takeWhile isNameChar) ∧
      ∃ right, ∃ t ∈ tokens ("\u0130".toList ++ '@' :: right),
        t.kind = .named ∧ t.position = (normalForm "\u0130".toList).length ∧
          t.text.toList ≠ '@' :: (lower right).takeWhile isNameChar := by
  constructor
  · have ht : (⟨.named, "@adv", 3⟩ : Token) ∈ tokens "dh a@Adv d@dis".toList := by decide +kernel
    have hnone : dottedI ∉ "dh a@Adv d@dis".toList := by decide
    obtain ⟨left, right, hsplit, -, hplace, hname⟩ := (tokens_names _).1 _ ht rfl
    refine ⟨_, ht, rfl, rfl, left, right, hsplit, hplace, hname fun hleft => hnone ?_⟩
    rw [hsplit]
    exact List.mem_append_left _ hleft
  · exact (tokens_names "\u0130".toList).2.2 (by decide)

example : (tokens "\u0130@a b".toList).map (·.text) = ["@", ""] := by decide +kernel

end Tabletop
