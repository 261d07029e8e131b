/-
  What the tokens of a text look like.

  The kind of a token says what characters its text has: a number is digits, a variable is its mark
  and the characters of a name, a comparison is one of the five, a modifier one of eight words.
  Whoever goes on from tokens needs no more than this of how they were cut, and that the one token
  of kind `finish` comes last.
-/
import Tabletop.Comparison
import Tabletop.Notation.Piece

namespace Tabletop

open Text

/-- The words of the modifiers. -/
def modifierWords : List String := ["kh", "kl", "k", "dh", "dl", "!", "r", "ro"]

/-- The text of a token is as its kind asks. -/
def Token.WellFormed (t : Token) : Prop :=
  match t.kind with
  | .number => t.text.toList ≠ [] ∧ ∀ c ∈ t.text.toList, isDigit c = true
  | .named => ∃ name, t.text.toList = '@' :: name ∧ ∀ c ∈ name, isNameChar c = true
  | .comparison => ∃ c : Comparison, t.text = c.symbol
  | .modifier => t.text ∈ modifierWords
  | .finish => False
  | _ => True

theorem Token.WellFormed.kind_ne_finish {t : Token} (h : t.WellFormed) : t.kind ≠ .finish := by
  intro hk
  rw [Token.WellFormed, hk] at h
  exact h

/-- The text of the lexeme that begins with `c` and takes `extra` of the glyphs behind it. -/
def lexemeText (c : Char) (rest : List Glyph) (extra : Nat) : String :=
  String.ofList (c :: (rest.take extra).map (·.char))

/-- The token at the head of the glyphs, and what comes behind it. -/
theorem piecesFrom_of_lexeme? {afterOperand : Bool} {c : Char} {rest : List Glyph}
    {kind : TokenKind} {extra : Nat} (h : lexeme? afterOperand c rest = some (kind, extra))
    (mark : Bool) (position : Nat) :
    piecesFrom afterOperand position (⟨c, mark⟩ :: rest) =
      .token ⟨kind, lexemeText c rest extra, position⟩ ::
        piecesFrom (Token.endsOperand ⟨kind, lexemeText c rest extra, position⟩)
          (position + 1 + extra) (rest.drop extra) := by
  rw [piecesFrom, h]
  rfl

/-- As many as `takeWhile` takes all pass its test. -/
theorem of_mem_take_length_takeWhile {p : Glyph → Bool} {rest : List Glyph} {g : Glyph}
    (h : g ∈ rest.take (rest.takeWhile p).length) : p g = true := by
  rw [← List.prefix_iff_eq_take.mp (List.takeWhile_prefix p)] at h
  exact List.all_eq_true.mp List.all_takeWhile g h

/-- What a run of characters of one sort makes of the text of a lexeme. -/
theorem toList_lexemeText_takeWhile (c : Char) (rest : List Glyph) (p : Glyph → Bool)
    {q : Char → Prop} (h : ∀ g, p g = true → q g.char) :
    ∃ run, (lexemeText c rest (rest.takeWhile p).length).toList = c :: run ∧ ∀ d ∈ run, q d := by
  refine ⟨_, String.toList_ofList, ?_⟩
  intro d hd
  obtain ⟨g, hg, rfl⟩ := List.mem_map.mp hd
  exact h g (of_mem_take_length_takeWhile hg)

/-- The text of a lexeme of two characters, the second of which was looked at. -/
theorem lexemeText_one {c d : Char} {rest : List Glyph} (h : rest.head?.map (·.char) = some d) :
    lexemeText c rest 1 = String.ofList [c, d] := by
  cases rest with
  | nil => simp at h
  | cons g rest =>
    have hg : g.char = d := by simpa using h
    simp [lexemeText, hg]

/-- The text of a comparison is one character, -/
theorem comparison_wellFormed {c : Char} (hc : isComparisonChar c = true) (rest : List Glyph)
    (position : Int) : Token.WellFormed ⟨.comparison, lexemeText c rest 0, position⟩ := by
  show ∃ op : Comparison, lexemeText c rest 0 = op.symbol
  simp only [isComparisonChar, Bool.or_eq_true, beq_iff_eq] at hc
  rcases hc with (rfl | rfl) | rfl
  · exact ⟨.lt, rfl⟩
  · exact ⟨.gt, rfl⟩
  · exact ⟨.eq, rfl⟩

/-- or two of them, the second of which was looked at. -/
theorem longComparison_wellFormed {c : Char} {rest : List Glyph} (hc : c = '<' ∨ c = '>')
    (hn : rest.head?.map (·.char) = some '=') (position : Int) :
    Token.WellFormed ⟨.comparison, lexemeText c rest 1, position⟩ := by
  show ∃ op : Comparison, lexemeText c rest 1 = op.symbol
  rw [lexemeText_one hn]
  rcases hc with rfl | rfl
  · exact ⟨.le, rfl⟩
  · exact ⟨.ge, rfl⟩

/-- The text of a number is a run of digits. -/
theorem number_wellFormed {c : Char} (hc : isDigit c = true) (rest : List Glyph) (position : Int) :
    Token.WellFormed
      ⟨.number, lexemeText c rest (rest.takeWhile (isDigit ·.char)).length, position⟩ := by
  obtain ⟨run, hrun, hdigits⟩ :=
    toList_lexemeText_takeWhile c rest (isDigit ·.char) (q := fun d => isDigit d = true)
      fun g hg => hg
  show (lexemeText c rest _).toList ≠ [] ∧ _
  rw [hrun]
  exact ⟨List.cons_ne_nil _ _, List.forall_mem_cons.mpr ⟨hc, hdigits⟩⟩

/-- The text of a variable is its mark and a run of characters of a name. -/
theorem named_wellFormed (rest : List Glyph) (position : Int) :
    Token.WellFormed
      ⟨.named, lexemeText '@' rest (rest.takeWhile (·.carriesName)).length, position⟩ := by
  obtain ⟨run, hrun, hname⟩ :=
    toList_lexemeText_takeWhile '@' rest (·.carriesName) (q := fun d => isNameChar d = true)
      fun g hg => (Bool.and_eq_true_iff.mp hg).1
  exact ⟨run, hrun, hname⟩

/-- The word of a modifier may be one character, -/
theorem word_wellFormed {c : Char} (h : String.ofList [c] ∈ modifierWords) (rest : List Glyph)
    (position : Int) : Token.WellFormed ⟨.modifier, lexemeText c rest 0, position⟩ := h

/-- or two of them, the second of which was looked at. -/
theorem longWord_wellFormed {c d : Char} {rest : List Glyph}
    (hn : rest.head?.map (·.char) = some d) (h : String.ofList [c, d] ∈ modifierWords)
    (position : Int) : Token.WellFormed ⟨.modifier, lexemeText c rest 1, position⟩ := by
  show lexemeText c rest 1 ∈ modifierWords
  rw [lexemeText_one hn]
  exact h

/-- What a lexeme that begins with `c` is made of: a run of characters of one sort, one or two
    characters of a comparison or of the word of a modifier, or whatever the other kinds have. -/
inductive Lexed (c : Char) (rest : List Glyph) : TokenKind → Nat → Prop where
  | number (digit : isDigit c = true) :
      Lexed c rest .number (rest.takeWhile (isDigit ·.char)).length
  | named (mark : c = '@') : Lexed c rest .named (rest.takeWhile (·.carriesName)).length
  | comparison (first : isComparisonChar c = true) : Lexed c rest .comparison 0
  | longComparison (first : c = '<' ∨ c = '>') (second : rest.head?.map (·.char) = some '=') :
      Lexed c rest .comparison 1
  | word (known : String.ofList [c] ∈ modifierWords) : Lexed c rest .modifier 0
  | longWord {d : Char} (second : rest.head?.map (·.char) = some d)
      (known : String.ofList [c, d] ∈ modifierWords) : Lexed c rest .modifier 1
  | other {kind : TokenKind} {extra : Nat}
      (plain : kind ∉ [.number, .named, .comparison, .modifier, .finish]) : Lexed c rest kind extra

/-- One case for each choice that the cutting of a lexeme makes, in order. -/
theorem lexed_of_lexeme? {afterOperand : Bool} {c : Char} {rest : List Glyph} {kind : TokenKind}
    {extra : Nat} (h : lexeme? afterOperand c rest = some (kind, extra)) :
    Lexed c rest kind extra := by
  revert h
  fun_cases lexeme? afterOperand c rest <;> intro h <;> cases h
  · next hdigit => exact .number hdigit
  · next hat => exact .named hat
  -- The letter d: a drop behind an operand, else a marker of dice.
  · next hd hdrop =>
    rcases hdrop.1 with hnext | hnext
    · exact .longWord hnext (by rw [hd]; decide)
    · exact .longWord hnext (by rw [hd]; decide)
  · exact .other (by decide)
  · exact .other (by decide)
  · exact .other (by decide)
  -- Pools, targets, operators and parentheses.
  · exact .other (by decide)
  · exact .other (by decide)
  · exact .other (by decide)
  · exact .other (by decide)
  · exact .other (by decide)
  · next hlong => exact .longComparison hlong.1 hlong.2
  · next hfirst _ => exact .comparison hfirst
  · next hk hlong =>
    rcases hlong with hnext | hnext
    · exact .longWord hnext (by rw [hk]; decide)
    · exact .longWord hnext (by rw [hk]; decide)
  · next hk _ => exact .word (by rw [hk]; decide)
  · next hr hlong => exact .longWord hlong (by rw [hr]; decide)
  · next hr _ => exact .word (by rw [hr]; decide)
  · next hbang => exact .word (by rw [hbang]; decide)

/-- A token cut off the head of glyphs is well-formed. -/
theorem wellFormed_of_lexeme {afterOperand : Bool} {c : Char} {rest : List Glyph}
    {kind : TokenKind} {extra : Nat} (h : lexeme? afterOperand c rest = some (kind, extra))
    (position : Int) : Token.WellFormed ⟨kind, lexemeText c rest extra, position⟩ := by
  cases lexed_of_lexeme? h with
  | number digit => exact number_wellFormed digit rest position
  | named mark =>
    subst mark
    exact named_wellFormed rest position
  | comparison first => exact comparison_wellFormed first rest position
  | longComparison first second => exact longComparison_wellFormed first second position
  | word known => exact word_wellFormed known rest position
  | longWord second known => exact longWord_wellFormed second known position
  | other plain =>
    cases kind with
    | number | named | comparison | modifier | finish => exact absurd (by decide) plain
    | _ => trivial

/-! ## Whole texts -/

theorem wellFormed_of_mem_piecesFrom (afterOperand : Bool) (position : Nat) (gs : List Glyph) :
    ∀ t, .token t ∈ piecesFrom afterOperand position gs → t.WellFormed := by
  fun_induction piecesFrom afterOperand position gs with
  | case1 => simp
  | case2 after position g rest kind extra hlex text token ih =>
    intro t ht
    rcases List.mem_cons.mp ht with heq | ht
    · cases heq
      exact wellFormed_of_lexeme hlex position
    · exact ih t ht
  | case3 after position g rest hlex ih =>
    intro t ht
    rcases List.mem_cons.mp ht with heq | ht
    · cases heq
    · exact ih t ht

/-- The tokens that were cut from a text, without the one that ends it. -/
def cutTokens (text : List Char) : List Token := (pieces text).filterMap Piece.token?

theorem tokens_eq (text : List Char) : tokens text = cutTokens text ++ [finishOf text] := rfl

theorem mem_pieces_of_mem_cutTokens {text : List Char} {t : Token} (h : t ∈ cutTokens text) :
    .token t ∈ pieces text := by
  obtain ⟨piece, hp, ht⟩ := List.mem_filterMap.mp h
  cases piece with
  | token u =>
    cases ht
    exact hp
  | stray c p => cases ht

theorem wellFormed_of_mem_cutTokens {text : List Char} {t : Token} (h : t ∈ cutTokens text) :
    t.WellFormed :=
  wellFormed_of_mem_piecesFrom _ _ _ t (mem_pieces_of_mem_cutTokens h)

/-- However a text is read, what comes of it is its tokens or nothing. -/
theorem eq_tokens_of_readTokens {strict : Bool} {text : String} {ts : List Token}
    (h : readTokens strict text = .ok ts) : ts = tokens text.toList := by
  rw [readTokens.eq_def] at h
  split at h
  · cases h
  · cases h
    rfl

/-- Reading the tokens of a text fails because of a stray character only. -/
theorem stray_of_readTokens {strict : Bool} {text : String} {e : ExprError}
    (h : readTokens strict text = .error e) : ∃ c position, e = .stray c position := by
  rw [readTokens.eq_def] at h
  split at h
  · cases h
    exact ⟨_, _, rfl⟩
  · cases h

end Tabletop
