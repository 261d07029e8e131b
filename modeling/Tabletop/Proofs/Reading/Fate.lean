/-
  Fate dice with modifiers, held against dice with faces.

  1. **Drops** — whether `dh` and `dl` drop dice is told by the token before them: a number does,
     the marker of Fate dice does not.  So behind the two the same tokens are cut, but for a drop
     that comes first, of which the marker of a roll or of dice is made.
  2. **Modifiers** — the grammar takes the same modifiers in both places, and no marker stands right
     behind that of Fate dice.
  3. **Texts** — so a text that is read behind `1d6` as modifiers is read as the same ones behind
     `1dF`, just if they do not begin with a drop; and if they do, it is refused.
-/
import Tabletop.Proofs.Evaluation.Stages
import Tabletop.Proofs.Notation.Sigma
import Tabletop.Proofs.Reading.Follows
import Tabletop.Proofs.Rendering.Basic

namespace Tabletop

open Grammar Text

/-! ## Drops -/

/-- The token is a word that drops dice. -/
def Token.IsDrop (t : Token) : Prop := IsWord t "dh" ∨ IsWord t "dl"

theorem lexeme?_d (afterOperand : Bool) (rest : List Glyph) :
    lexeme? afterOperand 'd' rest =
      if (rest.head?.map (·.char) = some 'h' ∨ rest.head?.map (·.char) = some 'l') ∧
        afterOperand then some (.modifier, 1)
      else if rest.head?.map (·.char) = some 'h' then some (.hopeFear, 1)
      else if rest.head?.map (·.char) = some 'f' then some (.fate, 1)
      else some (.dice, 0) := by
  rw [lexeme?, if_neg (by decide), if_neg (by decide), if_pos rfl]

/-- What is cut where no operand stands before is no drop. -/
theorem not_isDrop_of_lexeme? {c : Char} {rest : List Glyph} {kind : TokenKind} {extra : Nat}
    (h : lexeme? false c rest = some (kind, extra)) (position : Int) :
    ¬ Token.IsDrop ⟨kind, lexemeText c rest extra, position⟩ := by
  have hd : ∀ word : String, word.toList.head? = some 'd' →
      ¬ IsWord ⟨kind, lexemeText c rest extra, position⟩ word := by
    rintro word hword ⟨hkind, htext⟩
    obtain rfl : kind = .modifier := hkind
    have hhead : some c = some 'd' := by
      rw [← hword, ← htext, lexemeText, String.toList_ofList, List.head?_cons]
    cases hhead
    rw [lexeme?_d, if_neg (fun hop => Bool.false_ne_true hop.2)] at h
    split at h
    · cases h
    · split at h <;> cases h
  rintro (hdrop | hdrop)
  · exact hd "dh" rfl hdrop
  · exact hd "dl" rfl hdrop

/-- The letter of a drop is the only one that is read differently behind an operand. -/
theorem lexeme?_afterOperand (c : Char) (rest : List Glyph) :
    lexeme? true c rest = lexeme? false c rest ∨
      (∀ position, Token.IsDrop ⟨.modifier, lexemeText c rest 1, position⟩) ∧
        lexeme? true c rest = some (.modifier, 1) ∧
          ∃ kind ∈ [TokenKind.hopeFear, .dice], ∃ extra,
            lexeme? false c rest = some (kind, extra) := by
  by_cases hc : c = 'd'
  · subst hc
    by_cases hh : rest.head?.map (·.char) = some 'h'
    · refine Or.inr ⟨fun position => Or.inl ⟨rfl, lexemeText_one hh⟩, ?_, .hopeFear, by simp, 1, ?_⟩
      · simp [lexeme?_d, hh]
      · simp [lexeme?_d, hh]
    · by_cases hl : rest.head?.map (·.char) = some 'l'
      · refine Or.inr ⟨fun position => Or.inr ⟨rfl, lexemeText_one hl⟩, ?_, .dice, by simp, 0, ?_⟩
        · simp [lexeme?_d, hl]
        · simp [lexeme?_d, hl]
      · exact Or.inl (by simp [lexeme?_d, hh, hl])
  · exact Or.inl (by simp [lexeme?, hc])

/-- The tokens among pieces that begin with a token. -/
theorem filterMap_token?_cons (t : Token) (ps : List Piece) :
    (.token t :: ps).filterMap Piece.token? = t :: ps.filterMap Piece.token? := rfl

/-- The first token behind an operand is a drop where it is the marker of a roll or of dice
    elsewhere; or all is cut the same. -/
theorem piecesFrom_afterOperand (position : Nat) (gs : List Glyph) :
    piecesFrom true position gs = piecesFrom false position gs ∨
      (∃ t ts, (piecesFrom true position gs).filterMap Piece.token? = t :: ts ∧ t.IsDrop) ∧
        ∃ u us, (piecesFrom false position gs).filterMap Piece.token? = u :: us ∧
          u.kind ∈ [TokenKind.hopeFear, .dice] := by
  induction gs generalizing position with
  | nil => exact Or.inl (by rw [piecesFrom, piecesFrom])
  | cons g rest ih =>
    rcases lexeme?_afterOperand g.char rest with hsame | ⟨hdrop, htrue, kind, hkind, extra, hfalse⟩
    · cases hlex : lexeme? false g.char rest with
      | some found =>
        refine Or.inl ?_
        rw [piecesFrom, piecesFrom, hsame, hlex]
      | none =>
        rw [piecesFrom, piecesFrom, hsame, hlex]
        rcases ih (position + 1) with hequal | hdiffers
        · exact Or.inl (by rw [hequal])
        · exact Or.inr hdiffers
    · rw [piecesFrom, piecesFrom, htrue, hfalse]
      exact Or.inr ⟨⟨_, _, filterMap_token?_cons _ _, hdrop position⟩,
        _, _, filterMap_token?_cons _ _, hkind⟩

/-- Where no operand stands before, the first token is no drop. -/
theorem not_isDrop_of_piecesFrom (position : Nat) (gs : List Glyph) :
    ∀ t ∈ ((piecesFrom false position gs).filterMap Piece.token?).head?, ¬ t.IsDrop := by
  induction gs generalizing position with
  | nil =>
    rw [piecesFrom]
    exact fun t ht => absurd ht (Option.not_mem_none t)
  | cons g rest ih =>
    rw [piecesFrom]
    cases hlex : lexeme? false g.char rest with
    | some found =>
      intro t ht
      cases ht
      exact not_isDrop_of_lexeme? hlex position
    | none => exact ih (position + 1)

/-! ## Modifiers -/

/-- Modifiers begin with a drop just when their tokens do. -/
theorem beginsWithDrop_iff {ts : List Token} {ms : List Modifier} (h : Modifiers ts ms) :
    Modifier.BeginsWithDrop ms ↔ ∃ t ∈ ts.head?, t.IsDrop := by
  constructor
  · rintro ⟨extreme, count, rest, rfl⟩
    cases h with
    | cons head _ =>
      cases head with
      | selection listed head _ =>
        have hwords : ∀ entry ∈ selectionWords, entry.2.1 = .drop →
            entry.1 = "dh" ∨ entry.1 = "dl" := by decide
        refine ⟨_, rfl, ?_⟩
        rcases hwords _ listed rfl with rfl | rfl
        · exact Or.inl head
        · exact Or.inr head
  · -- No other modifier begins with one of these two words.
    rintro ⟨t, ht, hdrop⟩
    have htext : t.kind = .modifier ∧ (t.text = "dh" ∨ t.text = "dl") := by
      rcases hdrop with hdrop | hdrop
      · exact ⟨hdrop.1, Or.inl hdrop.2⟩
      · exact ⟨hdrop.1, Or.inr hdrop.2⟩
    cases h with
    | nil => cases ht
    | bareExplosion head _ _ =>
      cases ht
      rw [head.2] at htext
      exact absurd htext.2 (by decide)
    | cons head _ =>
      cases head with
      | selection listed head count =>
        cases ht
        rw [head.2] at htext
        have hwords : ∀ entry ∈ selectionWords, entry.1 = "dh" ∨ entry.1 = "dl" →
            entry.2.1 = .drop := by decide
        obtain rfl := hwords _ listed htext.2
        exact ⟨_, _, _, rfl⟩
      | explosion head _ _ =>
        cases ht
        rw [head.2] at htext
        exact absurd htext.2 (by decide)
      | bareReroll listed head _ | reroll listed head _ _ =>
        cases ht
        rw [head.2] at htext
        have hwords : ∀ entry ∈ rerollWords, ¬ (entry.1 = "dh" ∨ entry.1 = "dl") := by decide
        exact absurd htext.2 (hwords _ listed)
      | successCheck comparison _ =>
        cases ht
        rw [comparison.1] at htext
        cases htext.1

/-- A dice term by itself is derived as one. -/
theorem Grammar.Derives.dice_of_head {phrase : Phrase} {ts : List Token} {e : Expr}
    (h : Derives phrase ts e) (hhead : ∀ t ∈ ts.head?, t.kind ≠ .openParen) {count : Operand}
    {sides : Sides Operand} {ms : List Modifier} (he : e = .dice count sides ms) : Dice ts e := by
  induction h with
  | number | named | product | sum => cases he
  | parens opens => exact absurd opens (hhead _ rfl)
  | dice term => exact term
  | ofFactor _ ih | ofProduct _ ih => exact ih hhead he

/-- Behind a written count and a size stand the modifiers. -/
theorem Grammar.Sentence.modifiers_of_sized {n d s : Token} {ts : List Token} {count size : Operand}
    {ms : List Modifier} (h : Sentence (n :: d :: s :: ts) (.dice count (.faces size) ms))
    (hn : n.kind = .number) : IsOperand n count ∧ Modifiers ts ms := by
  have hdice : Dice (n :: d :: s :: ts) (.dice count (.faces size) ms) := by
    generalize hexpr : Expr.dice count (.faces size) ms = e at h
    generalize htokens : n :: d :: s :: ts = us at h
    cases h with
    | plain only =>
      refine only.dice_of_head ?_ hexpr.symm
      rw [← htokens]
      rintro t ⟨⟩
      simp [hn]
    | target => cases hexpr
  generalize hexpr : Expr.dice count (.faces size) ms = e at hdice
  generalize htokens : n :: d :: s :: ts = us at hdice
  cases hdice with
  | hopeFear => cases hexpr
  | fate => cases hexpr
  | sized head kind size tail =>
    cases hexpr
    cases head with
    | implicit =>
      rw [List.nil_append] at htokens
      obtain ⟨rfl, -⟩ := List.cons.inj htokens
      cases hn.symm.trans kind
    | written operand =>
      cases htokens
      exact ⟨operand, tail⟩

theorem Grammar.Sentence.of_fate {n d : Token} {ts : List Token} {count : Operand}
    {ms : List Modifier} (hn : IsOperand n count) (hd : d.kind = .fate) (h : Modifiers ts ms) :
    Sentence (n :: d :: ts) (.dice count .fate ms) :=
  .plain (.ofProduct (.ofFactor (.dice (.fate (.written hn) hd h))))

/-! ## Texts -/

/-- A digit before the letter of dice is a number. -/
theorem piecesFrom_one (gs : List Glyph) :
    piecesFrom false 0 (⟨'1', false⟩ :: ⟨'d', false⟩ :: gs) =
      .token ⟨.number, "1", 0⟩ :: piecesFrom true 1 (⟨'d', false⟩ :: gs) := by
  have hlex : lexeme? false '1' (⟨'d', false⟩ :: gs) = some (.number, 0) := rfl
  exact piecesFrom_of_lexeme? hlex false 0

variable {m : List Char}

theorem pieces_sized (h : NoDigit (ink m)) :
    pieces ("1d6".toList ++ m) =
      .token ⟨.number, "1", 0⟩ :: .token ⟨.dice, "d", 1⟩ :: .token ⟨.number, "6", 2⟩ ::
        piecesFrom true 3 (glyphsAfter false m) := by
  have hglyphs : glyphs ("1d6".toList ++ m) =
      ⟨'1', false⟩ :: ⟨'d', false⟩ :: ⟨'6', false⟩ :: glyphsAfter false m := rfl
  have hrun : (glyphsAfter false m).takeWhile (isDigit ·.char) = [] := by
    have hhead := noDigit_glyphsAfter h false
    cases hgs : glyphsAfter false m with
    | nil => rfl
    | cons g gs =>
      rw [hgs] at hhead
      exact List.takeWhile_cons_of_neg (by simp [hhead g.char rfl])
  have hdie : lexeme? true 'd' (⟨'6', false⟩ :: glyphsAfter false m) = some (.dice, 0) := rfl
  have hsize : lexeme? false '6' (glyphsAfter false m) = some (.number, 0) := by
    rw [lexeme?, if_pos (by decide), hrun, List.length_nil]
  have hdice : piecesFrom true 1 (⟨'d', false⟩ :: ⟨'6', false⟩ :: glyphsAfter false m) =
      .token ⟨.dice, "d", 1⟩ :: piecesFrom false 2 (⟨'6', false⟩ :: glyphsAfter false m) :=
    piecesFrom_of_lexeme? hdie false 1
  have hsix : piecesFrom false 2 (⟨'6', false⟩ :: glyphsAfter false m) =
      .token ⟨.number, "6", 2⟩ :: piecesFrom true 3 (glyphsAfter false m) :=
    piecesFrom_of_lexeme? hsize false 2
  rw [pieces, hglyphs, piecesFrom_one, hdice, hsix]

theorem pieces_fate :
    pieces ("1dF".toList ++ m) =
      .token ⟨.number, "1", 0⟩ :: .token ⟨.fate, "df", 1⟩ ::
        piecesFrom false 3 (glyphsAfter true m) := by
  have hglyphs : glyphs ("1dF".toList ++ m) =
      ⟨'1', false⟩ :: ⟨'d', false⟩ :: ⟨'f', false⟩ :: glyphsAfter true m := rfl
  have hmarker : lexeme? true 'd' (⟨'f', false⟩ :: glyphsAfter true m) = some (.fate, 1) := rfl
  have hfate : piecesFrom true 1 (⟨'d', false⟩ :: ⟨'f', false⟩ :: glyphsAfter true m) =
      .token ⟨.fate, "df", 1⟩ :: piecesFrom false 3 (glyphsAfter true m) :=
    piecesFrom_of_lexeme? hmarker false 1
  rw [pieces, hglyphs, piecesFrom_one, hfate]

/-- What is derived behind a size is derived behind the marker of Fate dice. -/
theorem DerivesWithin.fate {limit : Int} {n d s f : Token} {ts : List Token} {count size : Operand}
    {mods : List Modifier}
    (h : DerivesWithin limit (n :: d :: s :: ts) (.dice count (.faces size) mods))
    (hn : n.kind = .number) (hf : f.kind = .fate) :
    DerivesWithin limit (n :: f :: ts) (.dice count .fate mods) := by
  obtain ⟨hcount, hmods⟩ := h.sentence.modifiers_of_sized hn
  have hsub : ∀ t ∈ n :: f :: ts, t = f ∨ t ∈ n :: d :: s :: ts := by
    simp only [List.mem_cons]
    tauto
  have hplain : ∀ t ∈ n :: f :: ts, Plain t := by
    rw [List.forall_mem_cons, List.forall_mem_cons]
    exact ⟨hcount.plain, by simp [Plain, hf], hmods.plain⟩
  refine ⟨.of_fate hcount hf hmods, fun t ht hkind => ?_, fun t ht hkind => ?_,
    nestsWithin_of_plain hplain _⟩
  · rcases hsub t ht with rfl | ht
    · cases hf.symm.trans hkind
    · exact h.numbers t ht hkind
  · rcases hsub t ht with rfl | ht
    · cases hf.symm.trans hkind
    · exact h.names t ht hkind

/-- A text is refused if one of its tokens may not stand behind the one before it. -/
theorem refused_of_not_isChain {text : String}
    (h : ¬ (cutTokens text.toList).IsChain Follows) {strict : Bool} {limit : Int} :
    ∃ e, (Expr.ofText strict limit text).1 = .error (.expr e) := by
  cases hresult : (Expr.ofText strict limit text).1 with
  | ok e => exact absurd (ofText_eq_ok.mp hresult).2.sentence.isChain h
  | error fault =>
    rcases (ofText_sound strict limit text).2 fault hresult with ⟨c, place, rfl⟩ | ⟨misfit, rfl⟩
    · exact ⟨_, rfl⟩
    · exact ⟨_, rfl⟩

/-- **Fate dice.**  What is read behind `1d6` as modifiers of that die is read behind `1dF` as the
    same modifiers, if they do not begin with a drop; and if they do, it is refused. -/
theorem ofText_fate {m : String} (hm : NoDigit (ink m.toList)) {strict : Bool} {limit : Int}
    {mods : List Modifier}
    (h : (Expr.ofText strict limit ("1d6" ++ m)).1 =
      .ok (.dice (.number 1) (.faces (.number 6)) mods)) :
    (¬ Modifier.BeginsWithDrop mods →
        (Expr.ofText strict limit ("1dF" ++ m)).1 = .ok (.dice (.number 1) .fate mods)) ∧
      (Modifier.BeginsWithDrop mods →
        ∃ e, (Expr.ofText strict limit ("1dF" ++ m)).1 = .error (.expr e)) := by
  rw [ofText_eq_ok, String.toList_append, strays, cutTokens, pieces_sized hm] at h
  obtain ⟨hstrays, hderives⟩ := h
  obtain ⟨-, hmods⟩ := hderives.sentence.modifiers_of_sized rfl
  have hcut : cutTokens ("1dF" ++ m).toList = ⟨.number, "1", 0⟩ :: ⟨.fate, "df", 1⟩ ::
      (piecesFrom false 3 (glyphsAfter false m.toList)).filterMap Piece.token? := by
    rw [String.toList_append, cutTokens, pieces_fate,
      ← filterMap_token?_glyphsAfter false 3 true false]
    rfl
  rcases piecesFrom_afterOperand 3 (glyphsAfter false m.toList) with
    hsame | ⟨⟨t, ts, hts, hdrop⟩, u, us, hus, hkind⟩
  · -- All is cut the same, and no drop comes first.
    have hnone : ¬ Modifier.BeginsWithDrop mods := by
      rw [beginsWithDrop_iff hmods]
      rintro ⟨t, ht, hdrop⟩
      rw [hsame] at ht
      exact not_isDrop_of_piecesFrom 3 _ t ht hdrop
    refine ⟨fun _ => ?_, fun hdrop => absurd hdrop hnone⟩
    rw [ofText_eq_ok, hcut, ← hsame]
    refine ⟨fun hstrict => ?_, hderives.fate rfl rfl⟩
    have hclean := hstrays hstrict
    rw [String.toList_append, strays, pieces_fate]
    rw [hsame] at hclean
    exact (filterMap_stray?_glyphsAfter false 3 true false m.toList).mpr hclean
  · -- A drop comes first; in its place stands a marker right behind that of Fate dice.
    have hbegins : Modifier.BeginsWithDrop mods := by
      rw [beginsWithDrop_iff hmods]
      exact ⟨t, List.head?_eq_some_iff.mpr ⟨ts, hts⟩, hdrop⟩
    refine ⟨fun hnone => absurd hbegins hnone, fun _ => refused_of_not_isChain fun hchain => ?_⟩
    have hnever : ∀ k ∈ [TokenKind.hopeFear, .dice], k ∉ followers .fate := by decide
    rw [hcut, hus, List.isChain_cons_cons, List.isChain_cons_cons] at hchain
    exact hnever _ hkind hchain.2.1

/-- A drop behind a bare mark of explosion is read behind both; with no mark before it, only behind
    the size. -/
theorem ofText_fate_drop :
    (Expr.ofText true 1 ("1dF" ++ " !dl1")).1 =
        .ok (.dice (.number 1) .fate
          [.explosion ⟨.ge, none, none⟩, .selection ⟨.drop, .low, .number 1⟩]) ∧
      (Expr.ofText false 1 ("1d6" ++ "dl1")).1 =
        .ok (.dice (.number 1) (.faces (.number 6)) [.selection ⟨.drop, .low, .number 1⟩]) ∧
      ∃ e, (Expr.ofText false 1 ("1dF" ++ "dl1")).1 = .error (.expr e) := by
  have hmark : (Expr.ofText true 1 ("1d6" ++ " !dl1")).1 =
      .ok (.dice (.number 1) (.faces (.number 6))
        [.explosion ⟨.ge, none, none⟩, .selection ⟨.drop, .low, .number 1⟩]) := by cbv
  have hdrop : (Expr.ofText false 1 ("1d6" ++ "dl1")).1 =
      .ok (.dice (.number 1) (.faces (.number 6)) [.selection ⟨.drop, .low, .number 1⟩]) := by cbv
  refine ⟨(ofText_fate ?_ hmark).1 ?_, hdrop, (ofText_fate ?_ hdrop).2 ⟨_, _, _, rfl⟩⟩
  · rintro c ⟨⟩
    rfl
  · simp [Modifier.BeginsWithDrop]
  · rintro c ⟨⟩
    rfl

end Tabletop
