/-
  **Context**: what stands around the tokens of a text, and what reading need not be prepared for
  because of it.

  1. **Neighbours** — some tokens are cut only in view of the glyph behind them, or of the token
     before.  The glyph behind begins the next token, so both say how two tokens side by side suit
     one another (`Token.Suits`).  Glyphs that are skipped make no difference: they leave the
     operand before them standing, and the glyph that is looked at is never one of them.
  2. **Cursors** — wherever a reader stands among these tokens, it finds a comparison behind a
     target check, knows every comparison and modifier, and reads every number that is short enough
     (`Cursor.Steady`).
  3. **Readings** — among the causes of failure (`Reader.expressionCauses`) a missing comparison
     does not occur: only a target check asks for one, and it has one behind it.
-/
import Tabletop.Proofs.Notation.Marks
import Tabletop.Proofs.Reading.Causes
import Tabletop.Proofs.Reading.Exact
import Tabletop.Proofs.Reading.Fate
import Tabletop.Proofs.Rendering.Words

namespace Tabletop

open Grammar Text

/-! ## Lexemes -/

/-- What the scanner has looked at where it cuts one of three kinds of token: the glyph behind, or
    whether an operand stands before. -/
structure Looked (afterOperand : Bool) (rest : List Glyph) (kind : TokenKind) (extra : Nat) :
    Prop where
  target : kind = .target → extra = 0 ∧ ∃ g ∈ rest.head?, isComparisonChar g.char = true
  advantage : kind = .advantage →
    extra = 0 ∧ ∃ g ∈ rest.head?, isDigit g.char = true ∨ g.char = '@'
  hopeFear : kind = .hopeFear → afterOperand = false

/-- What is cut, if anything is, is of none of the three kinds. -/
def CutsOther (found : Option (TokenKind × Nat)) : Prop :=
  ∀ cut ∈ found, cut.1 ∉ [.target, .advantage, .hopeFear]

namespace CutsOther

theorem none : CutsOther .none := nofun

theorem some {kind : TokenKind} {extra : Nat} (h : kind ∉ [.target, .advantage, .hopeFear]) :
    CutsOther (.some (kind, extra)) := by
  rintro _ ⟨⟩
  exact h

theorem ite {p : Prop} [Decidable p] {first second : Option (TokenKind × Nat)}
    (hfirst : CutsOther first) (hsecond : CutsOther second) :
    CutsOther (if p then first else second) := by
  split
  · exact hfirst
  · exact hsecond

/-- Nothing was looked at for the other kinds. -/
theorem looked {found : Option (TokenKind × Nat)} {kind : TokenKind} {extra : Nat}
    (hcut : found = .some (kind, extra)) (h : CutsOther found) (afterOperand : Bool)
    (rest : List Glyph) : Looked afterOperand rest kind extra := by
  have hkind := h (kind, extra) hcut
  simp only [List.mem_cons, List.not_mem_nil, or_false, not_or] at hkind
  exact ⟨fun hk => absurd hk hkind.1, fun hk => absurd hk hkind.2.1, fun hk => absurd hk hkind.2.2⟩

end CutsOther

/-- A character that was looked at ahead is that of the first glyph there. -/
theorem exists_of_any {p : Char → Bool} {rest : List Glyph}
    (h : (rest.head?.map (·.char)).any p = true) : ∃ g ∈ rest.head?, p g.char = true := by
  cases rest with
  | nil => cases h
  | cons g rest => exact ⟨g, rfl, h⟩

/-- Whatever a lexeme was told by stands in the glyphs around it: one case for each lexeme. -/
theorem looked_of_lexeme? {afterOperand : Bool} {c : Char} {rest : List Glyph} {kind : TokenKind}
    {extra : Nat} (h : lexeme? afterOperand c rest = some (kind, extra)) :
    Looked afterOperand rest kind extra := by
  by_cases hd : c = 'd'
  · rw [hd, lexeme?_d] at h
    by_cases hdrop : (rest.head?.map (·.char) = some 'h' ∨ rest.head?.map (·.char) = some 'l') ∧
        afterOperand
    · rw [if_pos hdrop] at h
      exact CutsOther.looked h (.some (by decide)) _ _
    rw [if_neg hdrop] at h
    by_cases hh : rest.head?.map (·.char) = some 'h'
    · rw [if_pos hh] at h
      cases h
      refine ⟨fun hk => absurd hk (by decide), fun hk => absurd hk (by decide), fun _ => ?_⟩
      exact Bool.eq_false_iff.mpr fun hop => hdrop ⟨Or.inl hh, hop⟩
    rw [if_neg hh] at h
    exact CutsOther.looked h (.ite (.some (by decide)) (.some (by decide))) _ _
  rw [lexeme?, if_neg hd] at h
  by_cases ha : c = 'a' ∧ (rest.head?.map (·.char)).any (fun n => isDigit n || n == '@') = true
  · obtain ⟨g, hg, hnext⟩ := exists_of_any ha.2
    rw [Bool.or_eq_true, beq_iff_eq] at hnext
    rw [if_pos ha, ha.1, if_neg (by decide), if_neg (by decide)] at h
    cases h
    exact ⟨fun hk => absurd hk (by decide), fun _ => ⟨rfl, g, hg, hnext⟩,
      fun hk => absurd hk (by decide)⟩
  rw [if_neg ha] at h
  by_cases ht : c = 't' ∧ (rest.head?.map (·.char)).any isComparisonChar = true
  · obtain ⟨g, hg, hnext⟩ := exists_of_any ht.2
    rw [if_pos ht, ht.1, if_neg (by decide), if_neg (by decide)] at h
    cases h
    exact ⟨fun _ => ⟨rfl, g, hg, hnext⟩, fun hk => absurd hk (by decide),
      fun hk => absurd hk (by decide)⟩
  rw [if_neg ht] at h
  -- All that is left is cut without regard to what stands around it.
  have hword : ∀ extra, CutsOther (some (.modifier, extra)) := fun extra => .some (by decide)
  have hcomparison : ∀ extra, CutsOther (some (.comparison, extra)) := fun extra =>
    .some (by decide)
  refine CutsOther.looked h ?_ _ _
  refine .ite (.some (by decide)) (.ite (.some (by decide)) ?_)
  refine .ite (.some (by decide)) (.ite (.some (by decide)) (.ite (.some (by decide)) ?_))
  refine .ite (.ite (hcomparison 1) (hcomparison 0)) ?_
  refine .ite (.ite (hword 1) (hword 0)) (.ite (.ite (hword 1) (hword 0)) ?_)
  exact .ite (hword 0) .none

/-- A comparison is cut wherever one of its characters stands. -/
theorem lexeme?_of_comparisonChar {c : Char} (h : isComparisonChar c = true) (afterOperand : Bool)
    (rest : List Glyph) : ∃ extra, lexeme? afterOperand c rest = some (.comparison, extra) := by
  by_cases hnext : rest.head?.map (·.char) = some '='
  · have hc : c = '<' ∨ c = '>' ∨ c = '=' := by simpa [isComparisonChar, or_assoc] using h
    rcases hc with rfl | rfl | rfl
    · exact ⟨1, by simp [lexeme?, hnext, isDigit, isOperatorChar, isComparisonChar]⟩
    · exact ⟨1, by simp [lexeme?, hnext, isDigit, isOperatorChar, isComparisonChar]⟩
    · exact ⟨0, by simp [lexeme?, isDigit, isOperatorChar, isComparisonChar]⟩
  · exact ⟨0, lexeme?_comparison h hnext⟩

/-! ## Neighbours -/

/-- An operand, or a mark that may do without one: dice can be dropped behind it. -/
def Token.EndsOperand (t : Token) : Prop := t.kind = .number ∨ t.kind = .named ∨ IsWord t "!"

theorem Token.endsOperand_iff {t : Token} : t.endsOperand = true ↔ t.EndsOperand := by
  rw [Token.endsOperand, Token.EndsOperand, IsWord]
  cases t.kind <;> simp

/-- What two tokens side by side have to do with one another. -/
structure Token.Suits (t u : Token) : Prop where
  target : t.kind = .target → u.kind = .comparison
  advantage : t.kind = .advantage → u.kind = .number ∨ u.kind = .named
  drop : u.IsDrop → t.EndsOperand
  hopeFear : u.kind = .hopeFear → ¬ t.EndsOperand

/-- The first token of glyphs that begin with one is of the kind that is cut there. -/
theorem kind_of_first {afterOperand : Bool} {g : Glyph} {rest : List Glyph} {kind : TokenKind}
    {extra : Nat} (h : lexeme? afterOperand g.char rest = some (kind, extra)) (position : Nat)
    (more : List Token) :
    ∀ u ∈ ((piecesFrom afterOperand position (g :: rest)).filterMap Piece.token? ++ more).head?,
      u.kind = kind := by
  rw [piecesFrom_of_lexeme? h g.opensWord, filterMap_token?_cons, List.cons_append]
  rintro _ ⟨⟩
  rfl

/-- Behind an operand, the first token opens no roll. -/
theorem not_hopeFear_of_piecesFrom (position : Nat) (gs : List Glyph) :
    ∀ t ∈ ((piecesFrom true position gs).filterMap Piece.token?).head?, t.kind ≠ .hopeFear := by
  induction gs generalizing position with
  | nil =>
    rw [piecesFrom]
    exact fun t ht => absurd ht (Option.not_mem_none t)
  | cons g rest ih =>
    rw [piecesFrom]
    cases hlex : lexeme? true g.char rest with
    | some found =>
      rintro _ ⟨⟩ hkind
      exact absurd ((looked_of_lexeme? hlex).hopeFear hkind) (by decide)
    | none => exact ih (position + 1)

theorem mem_head?_concat {ts : List Token} {f u : Token} (h : u ∈ (ts ++ [f]).head?) :
    u ∈ ts.head? ∨ u = f := by
  cases ts with
  | nil => exact Or.inr (Option.some.inj h).symm
  | cons t ts => exact Or.inl h

/-- Words for dropping are modifiers. -/
theorem not_isDrop_of_kind {t : Token} (h : t.kind ≠ .modifier) : ¬ t.IsDrop := by
  rintro (hword | hword)
  · exact h hword.1
  · exact h hword.1

/-- The first token behind `t` suits it. -/
theorem suits_first {afterOperand : Bool} {c : Char} {rest : List Glyph} {kind : TokenKind}
    {extra : Nat} (h : lexeme? afterOperand c rest = some (kind, extra)) {t : Token}
    (hkind : t.kind = kind) (position : Nat) {f : Token} (hf : f.kind = .finish) :
    ∀ u ∈ ((piecesFrom t.endsOperand position (rest.drop extra)).filterMap Piece.token? ++
      [f]).head?, t.Suits u := by
  intro u hu
  have hlooked := looked_of_lexeme? h
  refine ⟨fun ht => ?_, fun ha => ?_, fun hdrop => ?_, fun hhope => ?_⟩
  · obtain ⟨rfl, g, hg, hc⟩ := hlooked.target (hkind ▸ ht)
    obtain ⟨more, rfl⟩ := List.head?_eq_some_iff.mp hg
    obtain ⟨extra, hlex⟩ := lexeme?_of_comparisonChar hc t.endsOperand more
    exact kind_of_first hlex position [f] u hu
  · obtain ⟨rfl, g, hg, hc⟩ := hlooked.advantage (hkind ▸ ha)
    obtain ⟨more, rfl⟩ := List.head?_eq_some_iff.mp hg
    rcases hc with hdigit | hmark
    · have hlex : lexeme? t.endsOperand g.char more =
          some (.number, (more.takeWhile (isDigit ·.char)).length) := by
        rw [lexeme?, if_pos hdigit]
      exact Or.inl (kind_of_first hlex position [f] u hu)
    · have hlex := lexeme?_mark t.endsOperand more
      rw [← hmark] at hlex
      exact Or.inr (kind_of_first hlex position [f] u hu)
  · rw [← Token.endsOperand_iff]
    by_contra hends
    rw [Bool.not_eq_true] at hends
    rw [hends] at hu
    rcases mem_head?_concat hu with hu | rfl
    · exact not_isDrop_of_piecesFrom _ _ u hu hdrop
    · exact not_isDrop_of_kind (by simp [hf]) hdrop
  · rw [← Token.endsOperand_iff]
    intro hends
    rw [hends] at hu
    rcases mem_head?_concat hu with hu | rfl
    · exact not_hopeFear_of_piecesFrom _ _ u hu hhope
    · exact absurd (hf.symm.trans hhope) (by decide)

/-- Any two neighbours suit one another: induction on the pieces. -/
theorem suits_piecesFrom (afterOperand : Bool) (position : Nat) (gs : List Glyph) {f : Token}
    (hf : f.kind = .finish) :
    ((piecesFrom afterOperand position gs).filterMap Piece.token? ++ [f]).IsChain Token.Suits := by
  fun_induction piecesFrom afterOperand position gs with
  | case1 => exact .singleton f
  | case2 afterOperand position g rest kind extra hlex text token ih =>
    rw [filterMap_token?_cons, List.cons_append, List.isChain_cons]
    exact ⟨suits_first hlex rfl _ hf, ih⟩
  | case3 afterOperand position g rest hlex ih => exact ih

/-- No text begins with dropping dice. -/
theorem not_isDrop_of_mem_head? {text : List Char} {t : Token} (h : t ∈ (tokens text).head?) :
    ¬ t.IsDrop := by
  rw [tokens_eq] at h
  rcases mem_head?_concat h with ht | rfl
  · exact not_isDrop_of_piecesFrom 0 (glyphs text) t ht
  · exact not_isDrop_of_kind nofun

/-- Neighbours among the tokens of a text suit each other. -/
theorem suits_tokens (text : List Char) : (tokens text).IsChain Token.Suits :=
  suits_piecesFrom false 0 (glyphs text) rfl

/-! ## Numbers -/

/-- The token is a run of digits in these characters, and no digit stands behind it there. -/
structure Token.IsRunIn (t : Token) (cs : List Char) : Prop where
  nonempty : t.text ≠ ""
  digits : ∀ c ∈ t.text.toList, isDigit c = true
  place : ∃ before more, cs = before ++ t.text.toList ++ more ∧ t.position = before.length ∧
    ∀ c ∈ more.head?, isDigit c = false

/-- A number begins with a digit and takes all digits behind it. -/
theorem of_lexeme?_number {afterOperand : Bool} {c : Char} {rest : List Glyph} {extra : Nat}
    (h : lexeme? afterOperand c rest = some (.number, extra)) :
    extra = (rest.takeWhile (isDigit ·.char)).length := by
  have hc : isDigit c = true := by
    obtain ⟨-, hdigits⟩ := wellFormed_of_lexeme h 0
    rw [lexemeText, String.toList_ofList] at hdigits
    exact hdigits c List.mem_cons_self
  rw [lexeme?, if_pos hc] at h
  cases h
  rfl

/-- A number is a whole run of digits of the normal form. -/
theorem isRunIn_of_mem_cutTokens {text : List Char} {t : Token} (ht : t ∈ cutTokens text)
    (hk : t.kind = .number) : t.IsRunIn (normalForm text) := by
  have hw := wellFormed_of_mem_cutTokens ht
  rw [Token.WellFormed, hk] at hw
  obtain ⟨before, g, more, after, extra, hgs, hlex, heq⟩ :=
    lexeme_of_mem_piecesFrom false 0 _ t (mem_pieces_of_mem_cutTokens ht)
  rw [hk] at hlex heq
  obtain rfl := of_lexeme?_number hlex
  have htext : t.text.toList = g.char :: (more.takeWhile (isDigit ·.char)).map (·.char) := by
    rw [heq, lexemeText, String.toList_ofList,
      ← List.prefix_iff_eq_take.mp (List.takeWhile_prefix _)]
  refine ⟨fun hempty => hw.1 (by rw [hempty]; rfl), hw.2, before.map (·.char),
    (more.dropWhile (isDigit ·.char)).map (·.char), ?_, ?_, ?_⟩
  · have hmore : more.map (·.char) = (more.takeWhile (isDigit ·.char)).map (·.char) ++
        (more.dropWhile (isDigit ·.char)).map (·.char) := by
      rw [← List.map_append, List.takeWhile_append_dropWhile]
    rw [← map_char_glyphs, hgs, htext, List.map_append, List.map_cons, hmore]
    simp
  · rw [heq, List.length_map, Nat.zero_add]
  · intro c hc
    have hstop := List.head?_dropWhile_not (isDigit ·.char) more
    cases hrest : more.dropWhile (isDigit ·.char) with
    | nil => simp [hrest] at hc
    | cons d rest =>
      rw [hrest] at hc hstop
      cases hc
      simpa using hstop

/-! ## Tokens in context -/

/-- Each token stands where it has a meaning.  A target check has its comparison behind it, and a
    pool its count; dice are dropped behind an operand or a bare mark of explosions only, and there
    no roll is opened; a number takes all the digits that there are; and comparisons and modifiers
    are among the known ones. -/
structure InContext (ts : List Token) (cs : List Char) : Prop where
  target : ∀ (front more : List Token) (t : Token), ts = front ++ t :: more →
    t.kind = .target → ∃ u ∈ more.head?, u.kind = .comparison
  advantage : ∀ (front more : List Token) (t : Token), ts = front ++ t :: more →
    t.kind = .advantage → ∃ u ∈ more.head?, u.kind = .number ∨ u.kind = .named
  drop : ∀ (front more : List Token) (t : Token), ts = front ++ t :: more →
    t.IsDrop → ∃ u ∈ front.getLast?, u.EndsOperand
  hopeFear : ∀ (front more : List Token) (t : Token), ts = front ++ t :: more →
    t.kind = .hopeFear → ∀ u ∈ front.getLast?, ¬ u.EndsOperand
  number : ∀ t ∈ ts, t.kind = .number → t.IsRunIn cs
  comparison : ∀ t ∈ ts, t.kind = .comparison → ∃ op : Comparison, t.text = op.symbol
  modifier : ∀ t ∈ ts, t.kind = .modifier →
    ∃ request, Reader.requests.lookup t.text = some request

/-- The word of a modifier is a known one. -/
theorem modifier_lookup {t : Token} (ht : t.WellFormed) (hk : t.kind = .modifier) :
    ∃ request, Reader.requests.lookup t.text = some request := by
  have hknown : ∀ word ∈ modifierWords, (Reader.requests.lookup word).isSome = true := by decide
  rw [Token.WellFormed, hk] at ht
  exact Option.isSome_iff_exists.mp (hknown t.text ht)

section Placed

variable {text : List Char} {front more : List Token} {t : Token}

theorem mem_cutTokens_of_mem (ht : t ∈ tokens text) (hk : t.kind ≠ .finish) :
    t ∈ cutTokens text := by
  rw [tokens_eq, List.mem_append, List.mem_singleton] at ht
  rcases ht with ht | rfl
  · exact ht
  · exact absurd rfl hk

/-- Behind every token comes one that it suits, but behind the last one, which ends the text. -/
theorem exists_suits_behind (h : tokens text = front ++ t :: more) (hk : t.kind ≠ .finish) :
    ∃ u ∈ more.head?, t.Suits u := by
  cases more with
  | nil =>
    rw [tokens_eq] at h
    obtain rfl := (List.cons.inj (List.append_inj' h rfl).2).1
    exact absurd rfl hk
  | cons u more =>
    have hchain := suits_tokens text
    rw [h, List.isChain_append_cons_cons] at hchain
    exact ⟨u, rfl, hchain.2.1⟩

/-- A token suits the one before it. -/
theorem suits_of_mem_getLast? (h : tokens text = front ++ t :: more) :
    ∀ u ∈ front.getLast?, u.Suits t := by
  have hchain := suits_tokens text
  rw [h, List.isChain_append] at hchain
  exact fun u hu => hchain.2.2 u hu t rfl

/-- Before the word of a drop stands the end of an operand. -/
theorem exists_endsOperand_before (h : tokens text = front ++ t :: more) (hdrop : t.IsDrop) :
    ∃ u ∈ front.getLast?, u.EndsOperand := by
  cases hlast : front.getLast? with
  | none =>
    have hhead : t ∈ (tokens text).head? := by
      rw [h, List.getLast?_eq_none_iff.mp hlast]
      rfl
    exact absurd hdrop (not_isDrop_of_mem_head? hhead)
  | some u => exact ⟨u, rfl, (suits_of_mem_getLast? h u hlast).drop hdrop⟩

end Placed

theorem inContext_tokens (text : List Char) : InContext (tokens text) (normalForm text) where
  target front more t hsplit hk := by
    obtain ⟨u, hu, hsuits⟩ := exists_suits_behind hsplit (by simp [hk])
    exact ⟨u, hu, hsuits.target hk⟩
  advantage front more t hsplit hk := by
    obtain ⟨u, hu, hsuits⟩ := exists_suits_behind hsplit (by simp [hk])
    exact ⟨u, hu, hsuits.advantage hk⟩
  drop _ _ _ hsplit hdrop := exists_endsOperand_before hsplit hdrop
  hopeFear _ _ _ hsplit hk u hu := (suits_of_mem_getLast? hsplit u hu).hopeFear hk
  number t ht hk := isRunIn_of_mem_cutTokens (mem_cutTokens_of_mem ht (by simp [hk])) hk
  comparison t ht hk := by
    have hw := wellFormed_of_mem_cutTokens (mem_cutTokens_of_mem ht (by simp [hk]))
    rw [Token.WellFormed, hk] at hw
    exact hw
  modifier t ht hk :=
    modifier_lookup (wellFormed_of_mem_cutTokens (mem_cutTokens_of_mem ht (by simp [hk]))) hk

/-! ## Cursors -/

/-- What reading relies on at a cursor: the comparison behind a target check is there; every
    comparison and every short number is read as what it says; and every modifier asks for
    something, so that reading it fails only where an operand is missing or bad. -/
structure Cursor.Steady (c : Cursor) : Prop where
  target : c.current.kind = .target →
    Reader.expect .comparison c.next = .ok c.next.current c.next.next
  comparison : c.current.kind = .comparison → ∃ op : Comparison,
    c.current.text = op.symbol ∧ Reader.comparison c.current = pure op
  number : c.current.kind = .number → c.current.text.length ≤ numberLengthLimit →
    Reader.number c = .ok (Nat.ofDigitChars 10 c.current.text.toList 0 : Nat) c.next
  modifier : c.current.kind = .modifier → ∃ request,
    Reader.requests.lookup c.current.text = some request ∧
      Reader.FailsBy Reader.operandCauses (Reader.modifier c.current)

/-- A cursor among tokens has the tokens of a text to read. -/
theorem Cursor.wellFormed_of_suffix {c : Cursor} {text : List Char} (h : c.ahead <:+ tokens text) :
    c.WellFormed := by
  obtain ⟨front, hfront⟩ := h
  rw [Cursor.ahead, tokens_eq, ← List.append_assoc] at hfront
  obtain ⟨hcut, hlast⟩ := List.append_inj' hfront rfl
  refine ⟨fun t ht => ?_, ?_⟩
  · have hmem : t ∈ cutTokens text := by
      rw [← hcut]
      exact List.mem_append_right front ht
    exact wellFormed_of_mem_cutTokens hmem
  · rw [(List.cons.inj hlast).1]
    rfl

theorem Cursor.current_mem_head?_ahead (c : Cursor) : c.current ∈ c.ahead.head? := by
  rw [Cursor.current, Cursor.ahead]
  cases c.unread with
  | nil => rfl
  | cons t rest => rfl

/-- Short of the end, what lies ahead is the token at the cursor and what lies ahead behind it. -/
theorem Cursor.WellFormed.ahead_eq {c : Cursor} (h : c.WellFormed)
    (hk : c.current.kind ≠ .finish) : c.ahead = c.current :: c.next.ahead := by
  rw [Cursor.ahead, Cursor.ahead, Cursor.next_last, h.unread_eq hk, List.cons_append]

/-- A cursor among the tokens of a text is steady. -/
theorem Cursor.steady {c : Cursor} {text : List Char} (h : c.ahead <:+ tokens text) :
    c.Steady := by
  have hc := Cursor.wellFormed_of_suffix h
  refine ⟨fun hk => ?_, fun hk => ?_, fun hk hlen => ?_, fun hk => ?_⟩
  · have hchain : c.ahead.IsChain Token.Suits := (suits_tokens text).suffix h
    rw [hc.ahead_eq (by simp [hk]), List.isChain_cons] at hchain
    have hsuits := hchain.1 c.next.current c.next.current_mem_head?_ahead
    exact Reader.expect_of_kind (hsuits.target hk)
  · obtain ⟨op, hword, hop⟩ := Reader.comparison_of_wellFormed (hc.current (by simp [hk])) hk
    exact ⟨op, hword.2, hop⟩
  · exact Reader.number_of_kind hc hk hlen
  · obtain ⟨request, hrequest⟩ := modifier_lookup (hc.current (by simp [hk])) hk
    refine ⟨request, hrequest, ?_⟩
    rw [Reader.modifier_of_lookup (by simp [hk]) hrequest]
    exact Reader.requested_failsBy request

/-! ## Whole readings -/

namespace Reader

variable {limit : Int}

/-- What is ahead after reading was ahead before. -/
theorem ahead_suffix {α : Type} {c c' : Cursor} {D : List Token → α → Prop} {a : α}
    (h : Reads c D (.ok a c')) : c'.ahead <:+ c.ahead := by
  cases h with
  | @ok used _ _ unread last within related =>
    exact ⟨used, by rw [Cursor.ahead, Cursor.ahead, unread, last, List.append_assoc]⟩

/-- Among the tokens of a text, a target check fails as an expression or an operand does: the
    comparison is there. -/
theorem target_causeIn {text : List Char} {c : Cursor} (h : c.ahead <:+ tokens text)
    (room : Nat) : CauseIn (expressionCauses limit) (target (expressionAt limit room) c) := by
  refine .bind (expressionAt_failsBy room c) fun e c₁ hrun => ?_
  have hreads := expressionAt_readsAs limit room c (Cursor.wellFormed_of_suffix h)
  rw [hrun] at hreads
  have hsteady := Cursor.steady ((ahead_suffix hreads).trans h)
  show CauseIn _ ((if c₁.current.kind = .target then take >>= fun _ => expect .comparison >>=
    fun t => comparison t >>= fun op => operand >>= fun x => pure (.target e op x)
    else pure e : Reader Expr) c₁)
  by_cases hk : c₁.current.kind = .target
  · rw [if_pos hk]
    refine .bind (FailsBy.take c₁) ?_
    rintro _ _ ⟨⟩
    rw [Run.bind_of_ok (hsteady.target hk)]
    exact FailsBy.bind (comparison_failsBy _) (fun op =>
      (operand_failsBy.mono operandCauses_subset).bind fun x => .pure _) _
  · rw [if_neg hk]
    exact FailsBy.pure e c₁

/-- A whole text is refused for the causes of expressions only. -/
theorem whole_causeIn {text : List Char} {c : Cursor} (h : c.ahead <:+ tokens text) :
    CauseIn (expressionCauses limit) (whole limit c) := by
  refine .bind (target_causeIn h _) fun e c₁ _ => ?_
  refine FailsBy.bind .current (fun token => ?_) c₁
  split
  · exact .pure e
  · exact .refuse unexpected_mem

end Reader

/-- Whatever the tokens of a text are refused for, it is no comparison missing behind a target
    check. -/
theorem ofTokens_causeIn {text : List Char} {limit : Int} {m : Misfit}
    (h : (Expr.ofTokens limit (tokens text)).1 = .error (.expr (.misfit m))) :
    m.cause ∈ Reader.expressionCauses limit := by
  have hahead : (Cursor.ofTokens (tokens text)).ahead <:+ tokens text := by
    rw [Cursor.ofTokens_tokens]
    exact List.suffix_refl _
  have hcause : Reader.CauseIn (Reader.expressionCauses limit)
      (Reader.whole limit (Cursor.ofTokens (tokens text))) := Reader.whole_causeIn hahead
  unfold Expr.ofTokens at h
  cases hrun : Reader.whole limit (Cursor.ofTokens (tokens text)) with
  | ok e c =>
    rw [hrun] at h
    cases h
  | error fault c =>
    rw [hrun] at h
    cases h
    exact hcause m.cause m.token c hrun

/-- **Context.**  However a text was cut into tokens, each of them stands where it has a meaning; at
    every cursor among them reading can rely on that; and no reading fails because a comparison is
    missing. -/
theorem readTokens_inContext {strict : Bool} {text : String} {ts : List Token}
    (h : readTokens strict text = .ok ts) :
    InContext ts (normalForm text.toList) ∧
      (∀ c : Cursor, c.ahead <:+ ts → c.Steady) ∧
      ∀ limit fault, (Expr.ofTokens limit ts).1 = .error fault →
        ∃ cause, ∃ t ∈ ts, fault = .expr (.misfit ⟨cause, t⟩) ∧
          cause ≠ .expected .comparison := by
  obtain rfl := eq_tokens_of_readTokens h
  refine ⟨inContext_tokens _, fun c hc => Cursor.steady hc, fun limit fault hfault => ?_⟩
  obtain ⟨cause, t, ht, rfl⟩ := (ofTokens_exact h limit).2 fault hfault
  refine ⟨cause, t, ht, rfl, ?_⟩
  rintro rfl
  exact absurd (ofTokens_causeIn hfault)
    (by simp [Reader.expressionCauses, Reader.operandCauses])

/-- Behind a bare mark of explosions dice are dropped, also if there is a blank between the two. -/
theorem readTokens_inContext_drop :
    readTokens true "dh a@n+4d6! dl1 t>=12" = .ok (tokens "dh a@n+4d6! dl1 t>=12".toList) ∧
      InContext (tokens "dh a@n+4d6! dl1 t>=12".toList)
        (normalForm "dh a@n+4d6! dl1 t>=12".toList) := by
  have hread : readTokens true "dh a@n+4d6! dl1 t>=12" =
      .ok (tokens "dh a@n+4d6! dl1 t>=12".toList) := by
    cbv
  exact ⟨hread, (readTokens_inContext hread).1⟩

end Tabletop
