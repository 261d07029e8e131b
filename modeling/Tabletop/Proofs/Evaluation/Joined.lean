/-
  Two texts in parentheses with an operator between them are read as the operator on what each of
  them is read as, if neither has a target clause and there is room for one parenthesis more.
-/
import Tabletop.Proofs.Evaluation.Stages
import Tabletop.Proofs.Reading.Shift

namespace Tabletop

open Grammar

/-- Two texts in parentheses with an operator between them. -/
def joined (first : String) (op : Operator) (second : String) : String :=
  "(" ++ first ++ ")" ++ op.symbol ++ "(" ++ second ++ ")"

/-- No token of a text begins a target clause. -/
def Untargeted (expression : String) : Prop :=
  ∀ t ∈ tokens (withoutAliases expression).toList, t.kind ≠ .target

/-- An arithmetic operator is written as one character, which divides the text around it. -/
theorem symbol_divides {op : Operator} (h : op ∈ arithmetic) :
    ∃ o ∈ dividers, op.symbol = String.ofList [o] ∧ dividerKind o = .operator := by
  simp only [arithmetic, List.mem_cons, List.not_mem_nil, or_false] at h
  rcases h with rfl | rfl | rfl | rfl
  · exact ⟨'+', by decide, rfl, rfl⟩
  · exact ⟨'-', by decide, rfl, rfl⟩
  · exact ⟨'*', by decide, rfl, rfl⟩
  · exact ⟨'/', by decide, rfl, rfl⟩

/-! ## Pieces -/

/-- Two shifts are one by their sum. -/
theorem map_shift_shift (near far : Nat) (ps : List Piece) :
    (ps.map (Piece.shift near)).map (Piece.shift far) = ps.map (Piece.shift (near + far)) := by
  rw [List.map_map]
  refine List.map_congr_left fun piece _ => ?_
  cases piece with
  | token t => simp [Piece.shift, Token.shift, Int.add_assoc]
  | stray c position => simp [Piece.shift, Nat.add_assoc]

/-- The pieces of joined texts: those of the two texts, further on, among five dividers. -/
theorem pieces_joined (first second : String) {op : Operator} (h : op ∈ arithmetic) :
    ∃ (near far : Nat) (a b c d e : Int), pieces (withoutAliases (joined first op second)).toList =
      .token ⟨.openParen, "(", a⟩ ::
        ((pieces (withoutAliases first).toList).map (Piece.shift near) ++
          .token ⟨.closeParen, ")", b⟩ :: .token ⟨.operator, op.symbol, c⟩ ::
            .token ⟨.openParen, "(", d⟩ ::
              ((pieces (withoutAliases second).toList).map (Piece.shift far) ++
                [.token ⟨.closeParen, ")", e⟩])) := by
  obtain ⟨o, ho, hsymbol, hkind⟩ := symbol_divides h
  have htext : (joined first op second).toList =
      [] ++ '(' :: (first.toList ++ ')' :: ([] ++ o :: ([] ++
        '(' :: (second.toList ++ [')'])))) := by
    simp [joined, hsymbol]
  -- Divider by divider from the left; nothing stands before an opening one.
  obtain ⟨n₁, h₁⟩ := piecesOf_append (show '(' ∈ dividers by decide) []
    (first.toList ++ ')' :: ([] ++ o :: ([] ++ '(' :: (second.toList ++ [')']))))
  obtain ⟨n₂, h₂⟩ := piecesOf_append (show ')' ∈ dividers by decide) first.toList
    ([] ++ o :: ([] ++ '(' :: (second.toList ++ [')'])))
  obtain ⟨n₃, h₃⟩ := piecesOf_append ho [] ([] ++ '(' :: (second.toList ++ [')']))
  obtain ⟨n₄, h₄⟩ := piecesOf_append (show '(' ∈ dividers by decide) [] (second.toList ++ [')'])
  obtain ⟨n₅, h₅⟩ := piecesOf_append (show ')' ∈ dividers by decide) second.toList []
  rw [pieces_withoutAliases, pieces_withoutAliases, pieces_withoutAliases, htext, h₁, h₂, h₃, h₄,
    h₅, piecesOf_nil, hsymbol, hkind]
  simp only [List.nil_append, List.map_append, List.map_cons, List.map_nil, map_shift_shift]
  exact ⟨_, _, _, _, _, _, _, rfl⟩

/-! ## Tokens -/

theorem token?_token (t : Token) : (Piece.token t).token? = some t := rfl

theorem stray?_token (t : Token) : (Piece.token t).stray? = none := rfl

/-- The tokens of shifted pieces are the shifted tokens. -/
theorem filterMap_token_shift (far : Nat) (ps : List Piece) :
    (ps.map (Piece.shift far)).filterMap Piece.token? =
      (ps.filterMap Piece.token?).map (Token.shift far) := by
  rw [List.filterMap_map, List.map_filterMap]
  refine List.filterMap_congr fun piece _ => ?_
  cases piece <;> rfl

/-- Shifted pieces have no stray character if the pieces have none. -/
theorem filterMap_stray_shift (far : Nat) {ps : List Piece} (h : ps.filterMap Piece.stray? = []) :
    (ps.map (Piece.shift far)).filterMap Piece.stray? = [] := by
  rw [List.filterMap_eq_nil_iff] at h ⊢
  intro piece hpiece
  obtain ⟨p, hp, rfl⟩ := List.mem_map.mp hpiece
  have hnone := h p hp
  cases p with
  | token t => rfl
  | stray c position => cases hnone

/-- A text without a target clause derives an expression without one. -/
theorem derives_of_untargeted {expression : String} {expr : Expr} (h : Untargeted expression)
    (hs : Sentence (cutTokens (withoutAliases expression).toList) expr) :
    Derives .sum (cutTokens (withoutAliases expression).toList) expr := by
  have hnone : ∀ t ∈ cutTokens (withoutAliases expression).toList, t.kind ≠ .target :=
    fun t ht => h t (List.mem_append_left _ ht)
  generalize cutTokens (withoutAliases expression).toList = ts at hs hnone
  cases hs with
  | plain only => exact only
  | target _ kind _ _ => exact absurd kind (hnone _ (by simp))

/-- Whether a token is too long does not hang on where it stands. -/
theorem withinLimits_shift (far : Nat) {ts : List Token} (h : ∀ t ∈ ts, t.WithinLimits) :
    ∀ t ∈ ts.map (Token.shift far), t.WithinLimits := by
  intro t ht
  obtain ⟨u, hu, rfl⟩ := List.mem_map.mp ht
  exact ⟨(h u hu).number, (h u hu).named⟩

/-- A sentence is derived within a limit if its tokens are short and its parentheses nest no deeper.
    -/
theorem DerivesWithin.of_withinLimits {limit : Int} {ts : List Token} {e : Expr}
    (h : Sentence ts e) (hw : ∀ t ∈ ts, t.WithinLimits) (hnest : NestsWithin limit.toNat ts) :
    DerivesWithin limit ts e :=
  ⟨h, fun t ht => (hw t ht).number, fun t ht => (hw t ht).named, hnest⟩

/-- Reading joined texts. -/
theorem exprOf_joined {settings : Settings} (hdepth : 2 ≤ settings.maxDepth) {op : Operator}
    (hop : op ∈ arithmetic) {first second : String} {l r : Expr} (hfirst : Untargeted first)
    (hsecond : Untargeted second)
    (hl : { settings with maxDepth := settings.maxDepth - 1 }.exprOf first = .ok l)
    (hr : { settings with maxDepth := settings.maxDepth - 1 }.exprOf second = .ok r) :
    settings.exprOf (joined first op second) = .ok (.binary op l r) := by
  rw [exprOf_eq_ok] at hl hr ⊢
  obtain ⟨hstrays, hleft⟩ := hl
  obtain ⟨hstrays', hright⟩ := hr
  obtain ⟨near, far, a, b, c, d, e, hpieces⟩ := pieces_joined first second hop
  have hderives := derives_of_untargeted hfirst hleft.sentence
  have hderives' := derives_of_untargeted hsecond hright.sentence
  constructor
  · intro hstrict
    have hnone := filterMap_stray_shift near (hstrays hstrict)
    have hnone' := filterMap_stray_shift far (hstrays' hstrict)
    rw [strays, hpieces]
    simp only [List.filterMap_cons, List.filterMap_append, List.filterMap_nil, stray?_token, hnone,
      hnone', List.append_nil]
  · have htokens : cutTokens (withoutAliases (joined first op second)).toList =
        (⟨.openParen, "(", a⟩ ::
          ((cutTokens (withoutAliases first).toList).map (Token.shift near) ++
            [⟨.closeParen, ")", b⟩])) ++ ⟨.operator, op.symbol, c⟩ ::
            (⟨.openParen, "(", d⟩ ::
              ((cutTokens (withoutAliases second).toList).map (Token.shift far) ++
                [⟨.closeParen, ")", e⟩])) := by
      rw [cutTokens, hpieces]
      simp only [List.filterMap_cons, List.filterMap_append, List.filterMap_nil, token?_token,
        filterMap_token_shift, List.cons_append, List.append_assoc, List.nil_append]
      rfl
    rw [htokens]
    generalize cutTokens (withoutAliases first).toList = ls at hleft hderives
    generalize cutTokens (withoutAliases second).toList = rs at hright hderives'
    -- Between its parentheses each side derives what it derives by itself.
    have hls := hderives.map (keeps_shift near)
    have hrs := hderives'.map (keeps_shift far)
    have hparens :=
      Derives.parens (o := ⟨.openParen, "(", a⟩) (c := ⟨.closeParen, ")", b⟩) rfl rfl hls
    have hparens' :=
      Derives.parens (o := ⟨.openParen, "(", d⟩) (c := ⟨.closeParen, ")", e⟩) rfl rfl hrs
    have hop' : IsOperator ⟨.operator, op.symbol, c⟩ op := ⟨rfl, rfl⟩
    have hwithin := withinLimits_shift near hleft.withinLimits
    have hwithin' := withinLimits_shift far hright.withinLimits
    refine .of_withinLimits (.plain (.binary hop hop' hparens hparens')) ?_ ?_
    · have hdivider : ∀ (kind : TokenKind) (text : String) (position : Int),
          kind ∉ [.finish, .number, .named] → Token.WithinLimits ⟨kind, text, position⟩ :=
        fun kind text position hk => Token.withinLimits_of_kind hk
      simp only [List.forall_mem_append, List.forall_mem_cons]
      exact ⟨⟨hdivider _ _ _ (by decide), hwithin, hdivider _ _ _ (by decide), by simp⟩,
        hdivider _ _ _ (by decide), hdivider _ _ _ (by decide), hwithin',
        hdivider _ _ _ (by decide), by simp⟩
    · -- A parenthesis closes before the next one opens, so one more is open at a time, not two.
      have hroom : settings.maxDepth.toNat - 1 = (settings.maxDepth - 1).toNat := by omega
      have hne : settings.maxDepth.toNat ≠ 0 := by omega
      rw [hparens.balanced, nestsWithin_cons_of_plain hop'.plain,
        nestsWithin_parens rfl rfl hls.balanced, nestsWithin_parens rfl rfl hrs.balanced, hroom,
        nestsWithin_map (keeps_shift near), nestsWithin_map (keeps_shift far)]
      exact ⟨⟨hne, hleft.nesting⟩, hne, hright.nesting⟩

end Tabletop
