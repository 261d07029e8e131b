/-
  How a text is cut into tokens wherever it stands.

  Cutting looks at two things besides the text: whether the token before ends in an operand, and
  the first character behind the text that is no blank.  `Cuts` says what a text is cut into when
  the one is as given and the other passes a test; nothing else about the surroundings matters.

  So texts are put together: where the second one begins with what the first one asks for, they are
  cut one after the other (`Cuts.append`).  What is left to know are the single words.
-/
import Tabletop.Proofs.Notation.Glyphs
import Tabletop.Proofs.Reading.Basic

namespace Tabletop

open Text

/-! ## What follows -/

/-- The first character of a text that is no blank. -/
def ink (text : List Char) : Option Char := text.find? fun c => !isBlank c

theorem ink_cons {c : Char} (h : isBlank c = false) (rest : List Char) :
    ink (c :: rest) = some c :=
  List.find?_cons_of_pos (by simp [h])

/-- The first glyph is the first character that is no blank. -/
theorem head?_glyphsFrom (mark : Bool) (text : List Char) :
    (glyphsFrom mark text).head?.map (·.char) = ink text := by
  induction text generalizing mark with
  | nil => rfl
  | cons c rest ih =>
    cases hc : isBlank c with
    | true =>
      rw [glyphsFrom_of_blank hc, ih]
      exact (List.find?_cons_of_neg (by simp [hc])).symm
    | false =>
      rw [glyphsFrom_of_not_blank hc, ink_cons hc]
      rfl

/-- Nothing is asked of what follows. -/
def Anything (_ : Option Char) : Prop := True

/-- No digit follows. -/
def NoDigit (next : Option Char) : Prop := ∀ c ∈ next, isDigit c = false

/-- An operand follows. -/
def OpensOperand (next : Option Char) : Prop := ∃ c ∈ next, isDigit c = true ∨ c = '@'

/-- A comparison follows. -/
def OpensComparison (next : Option Char) : Prop := ∃ c ∈ next, isComparisonChar c = true

/-! ## Texts that are cut -/

/-- An ASCII text letter by letter in lower case. -/
def lowerAscii (text : String) : List Char := text.toList.map Char.toLower

theorem filterMap_token?_token (ts : List Token) :
    (ts.map Piece.token).filterMap Piece.token? = ts := by
  simp [List.filterMap_map, Function.comp_def, Piece.token?]

theorem filterMap_stray?_token (ts : List Token) :
    (ts.map Piece.token).filterMap Piece.stray? = [] := by
  simp [List.filterMap_map, Function.comp_def, Piece.stray?]

/-- An ASCII text is cut into tokens within the limits, of which `Q` holds, `after` telling whether
    the token before ends in an operand, and `after'` the same of the last one.  Behind the text
    stands what passes `Next`. -/
structure Cuts (after : Bool) (text : String) (after' : Bool) (Next : Option Char → Prop)
    (Q : List Token → Prop) : Prop where
  ascii : ∀ c ∈ text.toList, c.toNat < 128
  cut : ∀ (mark : Bool) (position : Nat) (rest : List Char), Next (ink rest) →
    ∃ ts mark' position', piecesFrom after position (glyphsFrom mark (lowerAscii text ++ rest)) =
        ts.map Piece.token ++ piecesFrom after' position' (glyphsFrom mark' rest) ∧
      (∀ t ∈ ts, t.WithinLimits) ∧ Q ts

variable {after after' after'' : Bool} {text more : String} {Next Next' : Option Char → Prop}
  {Q R S : List Token → Prop}

namespace Cuts

/-- A text behind which stands one that begins as it should. -/
theorem append (h : Cuts after text after' Next Q) (h' : Cuts after' more after'' Next' R)
    (hnext : ∀ rest, Next' (ink rest) → Next (ink (lowerAscii more ++ rest)))
    (himp : ∀ ts us, Q ts → R us → S (ts ++ us)) :
    Cuts after (text ++ more) after'' Next' S := by
  constructor
  · rw [String.toList_append, List.forall_mem_append]
    exact ⟨h.ascii, h'.ascii⟩
  · intro mark position rest hrest
    obtain ⟨ts, mark', position', hts, hwithin, hQ⟩ :=
      h.cut mark position (lowerAscii more ++ rest) (hnext rest hrest)
    obtain ⟨us, mark'', position'', hus, hwithin', hR⟩ := h'.cut mark' position' rest hrest
    refine ⟨ts ++ us, mark'', position'', ?_, List.forall_mem_append.mpr ⟨hwithin, hwithin'⟩,
      himp ts us hQ hR⟩
    rw [lowerAscii, String.toList_append, List.map_append, List.append_assoc]
    exact hts.trans (by rw [hus, List.map_append, List.append_assoc])

/-- Less may be said of what a text is cut into, and more of what comes behind it. -/
theorem imp (h : Cuts after text after' Next Q) (hnext : ∀ o, Next' o → Next o)
    (himp : ∀ ts, Q ts → R ts) : Cuts after text after' Next' R := by
  refine ⟨h.ascii, fun mark position rest hrest => ?_⟩
  obtain ⟨ts, mark', position', hts, hwithin, hQ⟩ := h.cut mark position rest (hnext _ hrest)
  exact ⟨ts, mark', position', hts, hwithin, himp ts hQ⟩

/-- What a text is cut into that nothing stands behind. -/
theorem whole (h : Cuts after text after' Next Q) (hnone : Next none) (mark : Bool)
    (position : Nat) :
    ∃ ts, piecesFrom after position (glyphsFrom mark (lowerAscii text)) = ts.map Piece.token ∧
      (∀ t ∈ ts, t.WithinLimits) ∧ Q ts := by
  obtain ⟨ts, mark', position', hts, hwithin, hQ⟩ := h.cut mark position [] hnone
  refine ⟨ts, ?_, hwithin, hQ⟩
  have hnil : piecesFrom after' position' (glyphsFrom mark' []) = [] := by
    rw [glyphsFrom, piecesFrom]
  rw [List.append_nil, hnil, List.append_nil] at hts
  exact hts

/-- What a text by itself is cut into. -/
theorem pieces (h : Cuts false text after' Next Q) (hnone : Next none) :
    ∃ ts, Tabletop.pieces text.toList = ts.map Piece.token ∧ (∀ t ∈ ts, t.WithinLimits) ∧
      Q ts := by
  rw [pieces_of_ascii h.ascii]
  exact h.whole hnone false 0

end Cuts

/-- The tokens are a single one of that kind with that text. -/
def One (kind : TokenKind) (word : String) (ts : List Token) : Prop :=
  ∃ position, ts = [⟨kind, word, position⟩]

/-- A character as words are made of: ASCII, in lower case and no blank. -/
def isLowerInk (c : Char) : Bool := c.toLower == c && !isBlank c && decide (c.toNat < 128)

/-- Characters without blanks are a glyph each. -/
theorem glyphsFrom_word {cs : List Char} (h : ∀ c ∈ cs, isBlank c = false) (rest : List Char) :
    glyphsFrom false (cs ++ rest) = cs.map (⟨·, false⟩) ++ glyphsFrom false rest := by
  induction cs with
  | nil => rfl
  | cons c cs ih =>
    rw [List.forall_mem_cons] at h
    rw [List.cons_append, glyphsFrom_of_not_blank h.1, ih h.2, List.map_cons, List.cons_append]

/-- A token at the head of the glyphs. -/
theorem piecesFrom_word {c : Char} {cs : List Char} {kind : TokenKind} {gs : List Glyph}
    (hlex : lexeme? after c (cs.map (⟨·, false⟩) ++ gs) = some (kind, cs.length)) (mark : Bool)
    (position : Nat) :
    piecesFrom after position (⟨c, mark⟩ :: (cs.map (⟨·, false⟩) ++ gs)) =
      .token ⟨kind, String.ofList (c :: cs), position⟩ ::
        piecesFrom (Token.endsOperand ⟨kind, String.ofList (c :: cs), position⟩)
          (position + 1 + cs.length) gs := by
  have hlength : cs.length = (cs.map fun c => (⟨c, false⟩ : Glyph)).length := by simp
  rw [piecesFrom, hlex]
  dsimp only
  rw [hlength, List.take_left, List.drop_left, List.map_map]
  simp [Function.comp_def]

/-- The mark of a variable takes what is written of a name, if no name goes on behind that. -/
theorem lexeme?_name {cs : List Char} (h : ∀ c ∈ cs, isNameChar c = true) {gs : List Glyph}
    (hstop : gs.takeWhile (·.carriesName) = []) :
    lexeme? after '@' (cs.map (⟨·, false⟩) ++ gs) = some (.named, cs.length) := by
  rw [lexeme?, if_neg (by decide), if_pos rfl, List.takeWhile_append_of_pos, hstop]
  · simp
  · intro g hg
    obtain ⟨c, hc, rfl⟩ := List.mem_map.mp hg
    simp [Glyph.carriesName, h c hc]

/-- A word in lower case is one token if its lexeme is as long as it. -/
theorem cuts_word {c : Char} {cs : List Char} {kind : TokenKind} (hword : text.toList = c :: cs)
    (hchars : ∀ d ∈ c :: cs, isLowerInk d = true)
    (hwithin : ∀ position, Token.WithinLimits ⟨kind, text, position⟩)
    (hafter : ∀ position, Token.endsOperand ⟨kind, text, position⟩ = after')
    (hlex : ∀ gs : List Glyph, Next (gs.head?.map (·.char)) →
      lexeme? after c (cs.map (⟨·, false⟩) ++ gs) = some (kind, cs.length)) :
    Cuts after text after' Next (One kind text) := by
  simp only [isLowerInk, Bool.and_eq_true, beq_iff_eq, Bool.not_eq_true', decide_eq_true_eq]
    at hchars
  constructor
  · rw [hword]
    exact fun d hd => (hchars d hd).2
  · intro mark position rest hrest
    have htext : String.ofList (c :: cs) = text := by rw [← hword, String.ofList_toList]
    have hsame : lowerAscii text = c :: cs := by
      rw [lowerAscii, hword]
      exact (List.map_congr_left fun d hd => (hchars d hd).1.1).trans (List.map_id' _)
    have hblank : ∀ d ∈ c :: cs, isBlank d = false := fun d hd => (hchars d hd).1.2
    rw [List.forall_mem_cons] at hblank
    rw [← head?_glyphsFrom false] at hrest
    refine ⟨[⟨kind, text, position⟩], false, position + 1 + cs.length, ?_, by simpa using hwithin _,
      position, rfl⟩
    rw [hsame, List.cons_append, glyphsFrom_of_not_blank hblank.1, glyphsFrom_word hblank.2,
      piecesFrom_word (hlex _ hrest), htext, hafter]
    rfl

end Tabletop
