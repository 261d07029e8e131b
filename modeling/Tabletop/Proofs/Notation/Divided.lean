/-
  Divided notation: a parenthesis or an operator is a token by itself, and the pieces on its two
  sides are those of the two parts.

  No token goes on over a divider, and no token looks further than one glyph ahead, where a divider
  says no more than the end of the text does.  Behind a divider reading starts afresh: it ends no
  operand, and a blank before the first glyph of a part marks nothing that matters.  What the parts
  are put together changes is the positions, and these only by a shift.
-/
import Tabletop.Proofs.Notation.Glyphs
import Tabletop.Proofs.Text.Divided

namespace Tabletop

open Text

variable {d : Char}

/-! ## Lexemes -/

/-- The kind of the token that a divider is. -/
def dividerKind (d : Char) : TokenKind :=
  if d = '(' then .openParen else if d = ')' then .closeParen else .operator

/-- A divider is a token by itself, whatever stands before and behind it. -/
theorem lexeme?_divider (h : d ∈ dividers) (afterOperand : Bool) (rest : List Glyph) :
    lexeme? afterOperand d rest = some (dividerKind d, 0) :=
  forall_dividers (P := fun c => lexeme? afterOperand c rest = some (dividerKind c, 0))
    ⟨rfl, rfl, rfl, rfl, rfl, rfl⟩ d h

/-- A glyph that no token before it looks for: it carries on neither a number nor a name, and is no
    second character of a token. -/
structure Glyph.Closes (g : Glyph) : Prop where
  digit : isDigit g.char = false
  name : g.carriesName = false
  second : g.char ∉ ['@', 'h', 'l', 'f', 'o', '<', '=', '>']

/-- A divider carries on no token. -/
theorem closes_divider (h : d ∈ dividers) (mark : Bool) : Glyph.Closes ⟨d, mark⟩ := by
  have hall : ∀ c ∈ dividers, isDigit c = false ∧ isNameChar c = false ∧
      c ∉ ['@', 'h', 'l', 'f', 'o', '<', '=', '>'] :=
    forall_dividers (by decide)
  obtain ⟨hdigit, hname, hsecond⟩ := hall d h
  exact ⟨hdigit, by simp [Glyph.carriesName, hname], hsecond⟩

/-- A glyph that carries on no token makes no difference to the token before it, nor does what is
    behind it. -/
theorem lexeme?_append {g : Glyph} (h : g.Closes) (afterOperand : Bool) (c : Char)
    (rest more : List Glyph) :
    lexeme? afterOperand c (rest ++ g :: more) = lexeme? afterOperand c rest := by
  have htake : ∀ p : Glyph → Bool, p g = false →
      (rest ++ g :: more).takeWhile p = rest.takeWhile p := by
    intro p hp
    rw [List.takeWhile_append, List.takeWhile_cons_of_neg (by simp [hp]), List.append_nil]
    split
    · next hall => exact (List.takeWhile_sublist p).eq_of_length hall |>.symm
    · rfl
  rw [lexeme?, lexeme?, htake _ h.digit, htake _ h.name]
  cases rest with
  | cons g rest => rfl
  | nil =>
    have hsecond := h.second
    simp only [List.mem_cons, List.not_mem_nil, or_false, not_or] at hsecond
    simp [h.digit, isComparisonChar, hsecond]

/-! ## Pieces -/

/-- Behind a divider `dh` drops no dice but opens a Hope/Fear roll. -/
theorem endsOperand_divider (h : d ∈ dividers) (text : String) (position : Int) :
    Token.endsOperand ⟨dividerKind d, text, position⟩ = false :=
  forall_dividers (P := fun c => Token.endsOperand ⟨dividerKind c, text, position⟩ = false)
    ⟨rfl, rfl, rfl, rfl, rfl, rfl⟩ d h

/-- A divider is a piece by itself, and behind it the pieces are those of the rest. -/
theorem piecesFrom_divider (h : d ∈ dividers) (afterOperand : Bool) (position : Nat) (mark : Bool)
    (more : List Glyph) :
    piecesFrom afterOperand position (⟨d, mark⟩ :: more) =
      .token ⟨dividerKind d, String.ofList [d], position⟩ ::
        piecesFrom false (position + 1) more := by
  rw [piecesFrom, lexeme?_divider h]
  dsimp only [List.take_zero, List.map_nil, List.drop_zero, Nat.add_zero]
  rw [endsOperand_divider h]
  rfl

/-- The pieces before a glyph that closes are what they are without it and what follows; behind them
    cutting goes on from the last one. -/
theorem piecesFrom_append {g : Glyph} (h : g.Closes) (afterOperand : Bool) (position : Nat)
    (gs more : List Glyph) :
    ∃ after, piecesFrom afterOperand position (gs ++ g :: more) =
      piecesFrom afterOperand position gs ++
        piecesFrom after (position + gs.length) (g :: more) := by
  fun_induction piecesFrom afterOperand position gs with
  | case1 afterOperand position => exact ⟨afterOperand, rfl⟩
  | case2 afterOperand position first rest kind extra hlex =>
    rename_i ih
    obtain ⟨after, ih⟩ := ih
    have hle := extra_le_of_lexeme? hlex
    have hplace : position + 1 + extra + (rest.drop extra).length =
        position + (first :: rest).length := by
      rw [List.length_drop, List.length_cons]
      omega
    rw [hplace] at ih
    refine ⟨after, ?_⟩
    rw [List.cons_append, piecesFrom, lexeme?_append h, hlex]
    dsimp only
    rw [List.take_append_of_le_length hle, List.drop_append_of_le_length hle, List.cons_append]
    exact congrArg _ ih
  | case3 afterOperand position first rest hlex ih =>
    obtain ⟨after, ih⟩ := ih
    have hplace : position + 1 + rest.length = position + (first :: rest).length := by
      rw [List.length_cons]
      omega
    rw [hplace] at ih
    refine ⟨after, ?_⟩
    rw [List.cons_append, piecesFrom, lexeme?_append h, hlex]
    dsimp only
    rw [List.cons_append, ih]

/-! ## Positions -/

/-- A token so much further on. -/
def Token.shift (far : Nat) (t : Token) : Token := { t with position := t.position + far }

/-- A piece so much further on. -/
def Piece.shift (far : Nat) : Piece → Piece
  | token t => token (t.shift far)
  | stray c position => stray c (position + far)

/-- Glyphs that begin further on are cut into the same pieces further on. -/
theorem piecesFrom_shift (far : Nat) (afterOperand : Bool) (position : Nat) (gs : List Glyph) :
    piecesFrom afterOperand (position + far) gs =
      (piecesFrom afterOperand position gs).map (Piece.shift far) := by
  fun_induction piecesFrom afterOperand position gs with
  | case1 afterOperand position => rw [piecesFrom, List.map_nil]
  | case2 afterOperand position g rest kind extra hlex =>
    rename_i ih
    have hplace : position + far + 1 + extra = position + 1 + extra + far := by omega
    rw [piecesFrom, hlex, List.map_cons, ← ih]
    dsimp only
    rw [hplace, Int.natCast_add]
    rfl
  | case3 afterOperand position g rest hlex ih =>
    have hplace : position + far + 1 = position + 1 + far := by omega
    rw [piecesFrom, hlex, List.map_cons, ← ih]
    dsimp only
    rw [hplace]
    rfl

/-! ## Expressions -/

/-- Where a character that is no blank divides a text it divides the glyphs, and those behind it
    begin as if no blank were passed. -/
theorem glyphsFrom_append (hblank : isBlank d = false) (mark : Bool) (left right : List Char) :
    ∃ mark', glyphsFrom mark (left ++ d :: right) =
      glyphsFrom mark left ++ ⟨d, mark'⟩ :: glyphsFrom false right := by
  induction left generalizing mark with
  | nil => exact ⟨mark, glyphsFrom_of_not_blank hblank mark right⟩
  | cons c rest ih =>
    cases hc : isBlank c with
    | true =>
      obtain ⟨mark', hrest⟩ := ih true
      refine ⟨mark', ?_⟩
      rw [List.cons_append, glyphsFrom_of_blank hc, glyphsFrom_of_blank hc, hrest]
    | false =>
      obtain ⟨mark', hrest⟩ := ih false
      refine ⟨mark', ?_⟩
      rw [List.cons_append, glyphsFrom_of_not_blank hc, glyphsFrom_of_not_blank hc, hrest,
        List.cons_append]

/-- The pieces of a text with its aliases expanded. -/
def piecesOf (text : List Char) : List Piece :=
  piecesFrom false 0 (glyphsFrom false (expandAll (lower text)))

/-- What an expression is cut into once its aliases are expanded. -/
theorem pieces_withoutAliases (expression : String) :
    pieces (withoutAliases expression).toList = piecesOf expression.toList := by
  have hsmall : ∀ c ∈ squeeze (expandAll (lower expression.toList)), Small c := by
    have h : ∀ c ∈ (withoutAliases expression).toList, Small c := small_of_mem_withoutAliases
    rwa [withoutAliases_eq, String.toList_ofList] at h
  rw [withoutAliases_eq, String.toList_ofList, pieces, glyphs_squeeze hsmall, piecesFrom_trimLeft]
  rfl

theorem piecesOf_nil : piecesOf [] = [] := by
  have hnil : expandAll (lower []) = [] := by
    simp [expandAll, aliases, lower, lowerFrom, Alias.expandFrom]
  rw [piecesOf, hnil, glyphsFrom, piecesFrom]

/-- **The seam.**  A divider parts the pieces of a text: before it stand those of the one part, and
    behind it, further on, those of the other one. -/
theorem piecesOf_append (h : d ∈ dividers) (left right : List Char) :
    ∃ n : Nat, piecesOf (left ++ d :: right) =
      piecesOf left ++ .token ⟨dividerKind d, String.ofList [d], n⟩ ::
        (piecesOf right).map (Piece.shift (n + 1)) := by
  have hd := divides_of_mem h
  unfold piecesOf
  rw [lower_append hd.apart, expandAll_append hd]
  obtain ⟨mark, hglyphs⟩ :=
    glyphsFrom_append hd.blank false (expandAll (lower left)) (expandAll (lower right))
  obtain ⟨after, hpieces⟩ := piecesFrom_append (closes_divider h mark) false 0
    (glyphsFrom false (expandAll (lower left))) (glyphsFrom false (expandAll (lower right)))
  refine ⟨(glyphsFrom false (expandAll (lower left))).length, ?_⟩
  rw [hglyphs, hpieces, piecesFrom_divider h, ← piecesFrom_shift, Nat.zero_add, Nat.zero_add]

end Tabletop
