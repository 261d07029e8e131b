/-
  The glyphs of a text in lower case, and the names that are cut from them.

  1. Where lowering leaves a text as it is, the marks lie where they were taken, and the glyphs come
     of the text character by character (`glyphsFrom`).  One space for each run of blanks makes the
     same glyphs.
  2. What lies behind a glyph comes of what lies behind its character; and a name ends in the glyphs
     just where it ends in the text, for the glyph after a blank is marked.
-/
import Tabletop.Proofs.Notation.Marks
import Tabletop.Proofs.Text.Lower
import Tabletop.Proofs.Text.Upper

namespace Tabletop

open Text

/-- The glyphs of a text, character by character, `afterBlank` telling whether a blank stands before
    it. -/
def glyphsFrom (afterBlank : Bool) : List Char → List Glyph
  | [] => []
  | c :: rest =>
    if isBlank c then glyphsFrom true rest else ⟨c, afterBlank⟩ :: glyphsFrom false rest

/-- A blank is no glyph, but marks the glyph behind it. -/
theorem glyphsFrom_of_blank {c : Char} (h : isBlank c = true) (afterBlank : Bool)
    (rest : List Char) : glyphsFrom afterBlank (c :: rest) = glyphsFrom true rest := by
  rw [glyphsFrom, if_pos h]

/-- A character that is no blank is a glyph, marked if a blank was passed. -/
theorem glyphsFrom_of_not_blank {c : Char} (h : isBlank c = false) (afterBlank : Bool)
    (rest : List Char) :
    glyphsFrom afterBlank (c :: rest) = ⟨c, afterBlank⟩ :: glyphsFrom false rest := by
  rw [glyphsFrom, h]
  rfl

/-- A blank has no mark, but sets the next one. -/
theorem wordMarks_of_blank {c : Char} (h : isBlank c = true) (afterBlank : Bool)
    (rest : List Char) : wordMarks afterBlank (c :: rest) = wordMarks true rest :=
  if_pos h

/-- A character that is no blank has a mark of its own. -/
theorem wordMarks_of_not_blank {c : Char} (h : isBlank c = false) (afterBlank : Bool)
    (rest : List Char) :
    wordMarks afterBlank (c :: rest) = afterBlank :: wordMarks false rest :=
  if_neg (by simp [h])

/-- A blank is left out. -/
theorem withoutBlanks_of_blank {c : Char} (h : isBlank c = true) (rest : List Char) :
    withoutBlanks (c :: rest) = withoutBlanks rest :=
  List.filter_cons_of_neg (by simp [h])

/-- A character that is no blank is kept. -/
theorem withoutBlanks_of_not_blank {c : Char} (h : isBlank c = false) (rest : List Char) :
    withoutBlanks (c :: rest) = c :: withoutBlanks rest :=
  List.filter_cons_of_pos (by simp [h])

/-- Marks laid on the text that they were taken from lie where they were. -/
theorem zip_wordMarks (text : List Char) (afterBlank : Bool) :
    Glyph.zip (withoutBlanks text) (wordMarks afterBlank text) = glyphsFrom afterBlank text := by
  induction text generalizing afterBlank with
  | nil => rfl
  | cons c rest ih =>
    cases hc : isBlank c with
    | true =>
      rw [glyphsFrom_of_blank hc, ← ih true, withoutBlanks_of_blank hc, wordMarks_of_blank hc]
    | false =>
      rw [glyphsFrom_of_not_blank hc, ← ih false, withoutBlanks_of_not_blank hc,
        wordMarks_of_not_blank hc, Glyph.zip]

/-- Blanks in front are left out anyway. -/
theorem withoutBlanks_trimLeft (text : List Char) :
    withoutBlanks (trimLeft text) = withoutBlanks text := by
  induction text with
  | nil => rfl
  | cons c rest ih =>
    cases hc : isBlank c with
    | true =>
      rw [trimLeft, List.dropWhile_cons_of_pos hc, ← trimLeft, ih, withoutBlanks_of_blank hc]
    | false => rw [trimLeft, List.dropWhile_cons_of_neg (by simp [hc])]

/-- The glyphs of a text in lower case are its characters without blanks. -/
theorem glyphs_of_lower {text : List Char} (h : lower text = text) :
    glyphs text = glyphsFrom false (trimLeft text) := by
  rw [glyphs, normalForm, h, ← withoutBlanks_trimLeft, zip_wordMarks]

/-! ## Letter case -/

theorem isBlank_toLower {c : Char} (h : c.toNat < 128) : isBlank c.toLower = isBlank c :=
  forall_ascii (P := fun c => isBlank c.toLower = isBlank c) (by decide) h

/-- ASCII letters in lower case stand between the same blanks. -/
theorem wordMarks_lower {text : List Char} (h : ∀ c ∈ text, c.toNat < 128) (afterBlank : Bool) :
    wordMarks afterBlank (text.map Char.toLower) = wordMarks afterBlank text := by
  induction text generalizing afterBlank with
  | nil => rfl
  | cons c rest ih =>
    rw [List.forall_mem_cons] at h
    rw [List.map_cons, wordMarks, wordMarks, isBlank_toLower h.1, ih h.2, ih h.2]

/-- Blanks in front go before or after ASCII letters are lowered. -/
theorem trimLeft_lower {text : List Char} (h : ∀ c ∈ text, c.toNat < 128) :
    trimLeft (text.map Char.toLower) = (trimLeft text).map Char.toLower := by
  induction text with
  | nil => rfl
  | cons c rest ih =>
    rw [List.forall_mem_cons] at h
    have hlower := isBlank_toLower h.1
    cases hc : isBlank c with
    | true =>
      rw [List.map_cons, trimLeft, trimLeft, List.dropWhile_cons_of_pos hc,
        List.dropWhile_cons_of_pos (hlower.trans hc)]
      exact ih h.2
    | false =>
      rw [List.map_cons, trimLeft, trimLeft, List.dropWhile_cons_of_neg (by simp [hlower, hc]),
        List.dropWhile_cons_of_neg (by simp [hc]), List.map_cons]

/-- The glyphs of an ASCII text are its lower-case letters without blanks. -/
theorem glyphs_of_ascii {text : List Char} (h : ∀ c ∈ text, c.toNat < 128) :
    glyphs text = glyphsFrom false (trimLeft (text.map Char.toLower)) := by
  have htrim : ∀ c ∈ trimLeft text, c.toNat < 128 := fun c hc =>
    h c ((List.dropWhile_suffix _).subset hc)
  rw [glyphs, normalForm, lower_of_ascii h, ← wordMarks_lower htrim, ← trimLeft_lower h,
    ← withoutBlanks_trimLeft, zip_wordMarks]

/-! ## Blanks -/

/-- Blanks that are squeezed into one mark the same glyphs: induction on the text. -/
theorem glyphsFrom_squeezeFrom (text : List Char) (afterBlank gap : Bool) :
    glyphsFrom afterBlank (squeezeFrom gap text) = glyphsFrom (afterBlank || gap) text := by
  induction text generalizing afterBlank gap with
  | nil => rfl
  | cons c rest ih =>
    rw [squeezeFrom]
    cases hc : isBlank c with
    | true =>
      rw [if_pos rfl, ih, glyphsFrom_of_blank hc, Bool.or_true]
    | false =>
      rw [if_neg Bool.false_ne_true, glyphsFrom_of_not_blank hc]
      cases gap with
      | true =>
        rw [if_pos rfl, glyphsFrom_of_blank (by decide), glyphsFrom_of_not_blank hc, ih,
          Bool.or_true, Bool.false_or]
      | false =>
        rw [if_neg Bool.false_ne_true, glyphsFrom_of_not_blank hc, ih, Bool.or_false afterBlank]
        rfl

/-- A text that was squeezed begins with no blank. -/
theorem trimLeft_squeeze (text : List Char) : trimLeft (squeeze text) = squeeze text := by
  rw [squeeze]
  cases htext : trimLeft text with
  | nil => rfl
  | cons c rest =>
    have hc : isBlank c = false := by
      have hhead := List.head?_dropWhile_not isBlank text
      rw [← trimLeft, htext] at hhead
      simpa using hhead
    rw [squeezeFrom, hc, if_neg Bool.false_ne_true, if_neg Bool.false_ne_true, trimLeft,
      List.dropWhile_cons_of_neg (by simp [hc])]

/-- One space for each run of blanks makes the same glyphs. -/
theorem glyphs_squeeze {text : List Char} (h : ∀ c ∈ squeeze text, Small c) :
    glyphs (squeeze text) = glyphsFrom false (trimLeft text) := by
  rw [glyphs_of_lower (lower_of_small h), trimLeft_squeeze, squeeze, glyphsFrom_squeezeFrom]
  rfl

/-! ## Blanks before a text -/

/-- What stands before the first glyph is not looked at. -/
theorem piecesFrom_mark (afterOperand : Bool) (position : Nat) (mark mark' : Bool)
    (text : List Char) :
    piecesFrom afterOperand position (glyphsFrom mark text) =
      piecesFrom afterOperand position (glyphsFrom mark' text) := by
  cases text with
  | nil => rfl
  | cons c rest =>
    cases hc : isBlank c with
    | true => rw [glyphsFrom_of_blank hc, glyphsFrom_of_blank hc]
    | false =>
      rw [glyphsFrom_of_not_blank hc, glyphsFrom_of_not_blank hc, piecesFrom, piecesFrom]

/-- Blanks in front do not matter to the pieces. -/
theorem piecesFrom_trimLeft (afterOperand : Bool) (position : Nat) (mark : Bool)
    (text : List Char) :
    piecesFrom afterOperand position (glyphsFrom mark (trimLeft text)) =
      piecesFrom afterOperand position (glyphsFrom mark text) := by
  induction text with
  | nil => rfl
  | cons c rest ih =>
    cases hc : isBlank c with
    | true =>
      rw [trimLeft, List.dropWhile_cons_of_pos hc, ← trimLeft, ih, glyphsFrom_of_blank hc,
        piecesFrom_mark _ _ mark true]
    | false => rw [trimLeft, List.dropWhile_cons_of_neg (by simp [hc])]

/-- ASCII is cut as its lower case is, letter by letter. -/
theorem pieces_of_ascii {text : List Char} (h : ∀ c ∈ text, c.toNat < 128) :
    pieces text = piecesFrom false 0 (glyphsFrom false (text.map Char.toLower)) := by
  rw [pieces, glyphs_of_ascii h, piecesFrom_trimLeft]

/-! ## What lies behind a glyph -/

/-- A glyph stands for its character, which blanks may stand before. -/
theorem of_glyphsFrom_eq_cons {afterBlank : Bool} {text : List Char} {g : Glyph}
    {rest : List Glyph} (h : glyphsFrom afterBlank text = g :: rest) :
    ∃ more, g.char :: more <:+ text ∧ rest = glyphsFrom false more := by
  induction text generalizing afterBlank with
  | nil => cases h
  | cons c text ih =>
    cases hc : isBlank c with
    | true =>
      rw [glyphsFrom_of_blank hc] at h
      obtain ⟨more, hmore, hrest⟩ := ih h
      exact ⟨more, hmore.trans (List.suffix_cons c text), hrest⟩
    | false =>
      rw [glyphsFrom_of_not_blank hc] at h
      cases h
      exact ⟨text, List.suffix_refl _, rfl⟩

/-- What is left behind some glyphs are the glyphs of an end of the text. -/
theorem drop_glyphsFrom (n : Nat) (afterBlank : Bool) (text : List Char) :
    ∃ mark more, more <:+ text ∧ (glyphsFrom afterBlank text).drop n = glyphsFrom mark more := by
  induction n generalizing afterBlank text with
  | zero => exact ⟨afterBlank, text, List.suffix_refl _, rfl⟩
  | succ n ih =>
    cases hglyphs : glyphsFrom afterBlank text with
    | nil => exact ⟨false, [], List.nil_suffix, by simp [glyphsFrom]⟩
    | cons g rest =>
      obtain ⟨more, hmore, rfl⟩ := of_glyphsFrom_eq_cons hglyphs
      obtain ⟨mark, later, hlater, hdrop⟩ := ih false more
      refine ⟨mark, later, hlater.trans ((List.suffix_cons _ _).trans hmore), ?_⟩
      rw [List.drop_succ_cons, hdrop]

/-! ## Names -/

/-- No blank belongs to a name. -/
theorem isBlank_of_isNameChar {c : Char} (h : isNameChar c = true) : isBlank c = false :=
  forall_ascii (P := fun c => isNameChar c = true → isBlank c = false) (by decide)
    (toNat_lt_of_isNameChar h) h

/-- Behind a blank no name goes on. -/
theorem takeWhile_glyphsFrom_true (text : List Char) :
    (glyphsFrom true text).takeWhile (·.carriesName) = [] := by
  induction text with
  | nil => rfl
  | cons c rest ih =>
    cases hc : isBlank c with
    | true => rw [glyphsFrom_of_blank hc, ih]
    | false =>
      rw [glyphsFrom_of_not_blank hc]
      exact List.takeWhile_cons_of_neg (by simp [Glyph.carriesName])

/-- A name ends in the glyphs where it ends in the text. -/
theorem takeWhile_glyphsFrom (text : List Char) :
    ((glyphsFrom false text).takeWhile (·.carriesName)).map (·.char) =
      text.takeWhile isNameChar := by
  induction text with
  | nil => rfl
  | cons c rest ih =>
    cases hn : isNameChar c with
    | true =>
      rw [glyphsFrom_of_not_blank (isBlank_of_isNameChar hn), List.takeWhile_cons_of_pos hn,
        List.takeWhile_cons_of_pos (by simp [Glyph.carriesName, hn]), List.map_cons, ih]
    | false =>
      rw [List.takeWhile_cons_of_neg (by simp [hn])]
      cases hc : isBlank c with
      | true => rw [glyphsFrom_of_blank hc, takeWhile_glyphsFrom_true, List.map_nil]
      | false =>
        rw [glyphsFrom_of_not_blank hc,
          List.takeWhile_cons_of_neg (by simp [Glyph.carriesName, hn]), List.map_nil]

/-- A variable is cut from the glyphs with the whole of a name that follows its mark in the text. -/
theorem name_of_mem_piecesFrom (afterOperand : Bool) (position : Nat) {afterBlank : Bool}
    {text : List Char} {t : Token}
    (ht : .token t ∈ piecesFrom afterOperand position (glyphsFrom afterBlank text))
    (hkind : t.kind = .named) :
    ∃ more, '@' :: more <:+ text ∧ t.text.toList = '@' :: more.takeWhile isNameChar := by
  obtain ⟨before, mark, rest, hglyphs, rfl⟩ := mark_of_named _ _ _ t ht hkind
  obtain ⟨mark', later, hlater, hdrop⟩ := drop_glyphsFrom before.length afterBlank text
  rw [hglyphs, List.drop_left] at hdrop
  obtain ⟨more, hmore, rfl⟩ := of_glyphsFrom_eq_cons hdrop.symm
  refine ⟨more, hmore.trans hlater, ?_⟩
  rw [Token.ofMark, String.toList_ofList, takeWhile_glyphsFrom]

end Tabletop
