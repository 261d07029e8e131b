/-
  The pieces of a text tile its normal form.

  1. **Tiling** — each piece begins where the one before it ends, and the characters of all of them
     make up the normal form.  This is what one step of the scanner keeps, whichever of its branches
     it goes through: it passes over just the characters of the piece that it gives out.
  2. **Tokens** — so the tokens come in order and apart from one another, and each of them is what
     the normal form has in its place.
  3. **Strays** — a character that no token covers is a stray, and there are no others.  So strict
     reading goes well just when the tokens cover all of the normal form, and else refuses the first
     character that none of them covers.
-/
import Tabletop.Proofs.Notation.Marks

namespace Tabletop

open Text

/-! ## Tiling -/

/-- The pieces lie one behind the other from a place on, and make up these characters. -/
inductive Tiles : Nat → List Char → List Piece → Prop where
  | nil {place : Nat} : Tiles place [] []
  | token {place : Nat} {kind : TokenKind} {text rest : List Char} {ps : List Piece}
      (kind_ne : kind ≠ .finish) (text_ne : text ≠ [])
      (tail : Tiles (place + text.length) rest ps) :
      Tiles place (text ++ rest) (.token ⟨kind, String.ofList text, place⟩ :: ps)
  | stray {place : Nat} {c : Char} {rest : List Char} {ps : List Piece}
      (tail : Tiles (place + 1) rest ps) : Tiles place (c :: rest) (.stray c place :: ps)

/-- Every step of the scanner passes over what it gives out. -/
theorem tiles_piecesFrom (afterOperand : Bool) (place : Nat) (gs : List Glyph) :
    Tiles place (gs.map (·.char)) (piecesFrom afterOperand place gs) := by
  fun_induction piecesFrom afterOperand place gs with
  | case1 => exact .nil
  | case2 afterOperand place g rest kind extra hlex text token ih =>
    have hle := extra_le_of_lexeme? hlex
    have hlength : (g.char :: (rest.take extra).map (·.char)).length = 1 + extra := by
      rw [List.length_cons, List.length_map, List.length_take, Nat.min_eq_left hle, Nat.add_comm]
    have hsplit : (g :: rest).map (·.char) =
        (g.char :: (rest.take extra).map (·.char)) ++ (rest.drop extra).map (·.char) := by
      rw [List.cons_append, ← List.map_append, List.take_append_drop, List.map_cons]
    rw [hsplit]
    refine .token (wellFormed_of_lexeme hlex 0).kind_ne_finish (List.cons_ne_nil _ _) ?_
    rw [hlength, ← Nat.add_assoc]
    exact ih
  | case3 afterOperand place g rest hlex ih => exact .stray ih

/-- The pieces of a text tile its normal form. -/
theorem tiles_pieces (text : List Char) : Tiles 0 (normalForm text) (pieces text) := by
  have htiles := tiles_piecesFrom false 0 (glyphs text)
  rwa [map_char_glyphs] at htiles

/-! ## Tokens -/

/-- The place behind a token. -/
def Token.behind (t : Token) : Int := t.position + t.text.length

/-- The token is no end, and is what the characters that begin at `place` have where it stands. -/
structure Token.LiesIn (t : Token) (place : Nat) (cs : List Char) : Prop where
  kind : t.kind ≠ .finish
  nonempty : t.text ≠ ""
  text : ∃ n : Nat, t.position = (place + n : Nat) ∧ t.text.toList <+: cs.drop n

namespace Token.LiesIn

variable {t : Token} {place : Nat} {cs : List Char}

/-- What lies in the rest of a text lies in all of it. -/
theorem append {front : List Char} (h : t.LiesIn (place + front.length) cs) :
    t.LiesIn place (front ++ cs) := by
  obtain ⟨n, hplace, htext⟩ := h.text
  refine ⟨h.kind, h.nonempty, front.length + n, ?_, ?_⟩
  · rw [hplace, Nat.add_assoc]
  · rwa [List.drop_length_add_append]

/-- A token lies within the text that it stands in. -/
theorem bounds (h : t.LiesIn place cs) :
    place ≤ t.position ∧ t.position < t.behind ∧ t.behind ≤ (place + cs.length : Nat) := by
  obtain ⟨n, hplace, htext⟩ := h.text
  have hle := htext.length_le
  have hpos : t.text.length ≠ 0 := fun hzero => h.nonempty (String.length_eq_zero_iff.mp hzero)
  rw [String.length_toList, List.length_drop] at hle
  rw [Token.behind]
  omega

end Token.LiesIn

namespace Tiles

variable {place : Nat} {cs : List Char} {ps : List Piece}

/-- The tokens among pieces that tile a text lie in it: induction on the pieces. -/
theorem liesIn (h : Tiles place cs ps) : ∀ t ∈ ps.filterMap Piece.token?, t.LiesIn place cs := by
  induction h with
  | nil => simp
  | @token place kind text rest ps kind_ne text_ne _ ih =>
    intro t ht
    rcases List.mem_cons.mp ht with rfl | ht
    · refine ⟨kind_ne, ?_, 0, rfl, ?_⟩
      · rw [Ne, String.ofList_eq_empty_iff]
        exact text_ne
      · rw [String.toList_ofList]
        exact List.prefix_append text rest
    · exact (ih t ht).append
  | @stray place c rest ps _ ih =>
    intro t ht
    have hwhole : t.LiesIn place ([c] ++ rest) := (ih t ht).append
    exact hwhole

/-- No token reaches into one behind it. -/
theorem apart (h : Tiles place cs ps) :
    (ps.filterMap Piece.token?).Pairwise fun t u => t.behind ≤ u.position := by
  induction h with
  | nil => exact .nil
  | @token place kind text rest ps _ _ tail ih =>
    refine List.pairwise_cons.mpr ⟨fun u hu => ?_, ih⟩
    have hbounds := (tail.liesIn u hu).bounds
    rw [Token.behind, String.length_ofList]
    exact hbounds.1
  | stray _ ih => exact ih

end Tiles

/-! ## Strays -/

/-- Whether a place lies in a token. -/
def Token.covers (t : Token) (place : Nat) : Bool :=
  decide (t.position ≤ place ∧ place < t.behind)

/-- Whether none of the tokens covers a character, which is given with its place. -/
def isBare (ts : List Token) (spot : Char × Nat) : Bool := !ts.any (·.covers spot.2)

/-- The strays of a tiling are the characters that no token covers: induction on the tiling.  A
    token covers all of its own characters, and none of those behind it. -/
theorem Tiles.strays_eq {place : Nat} {cs : List Char} {ps : List Piece} (h : Tiles place cs ps) :
    ps.filterMap Piece.stray? =
      (cs.zipIdx place).filter (isBare (ps.filterMap Piece.token?)) := by
  induction h with
  | nil => rfl
  | @token place kind text rest ps _ _ tail ih =>
    generalize htoken : (⟨kind, String.ofList text, place⟩ : Token) = t
    have hposition : t.position = place := by rw [← htoken]
    have hbehind : t.behind = (place + text.length : Nat) := by
      rw [← htoken, Token.behind, String.length_ofList, Int.natCast_add]
    have hown : ∀ spot ∈ text.zipIdx place,
        ¬ isBare (t :: ps.filterMap Piece.token?) spot = true := by
      intro spot hspot
      have hlow := List.le_snd_of_mem_zipIdx hspot
      have hhigh := List.snd_lt_add_of_mem_zipIdx hspot
      have hcovers : t.covers spot.2 = true := by
        rw [Token.covers, decide_eq_true_eq]
        omega
      simp [isBare, hcovers]
    have hrest : ∀ spot ∈ rest.zipIdx (place + text.length),
        isBare (t :: ps.filterMap Piece.token?) spot =
          isBare (ps.filterMap Piece.token?) spot := by
      intro spot hspot
      have hlow := List.le_snd_of_mem_zipIdx hspot
      have hcovers : t.covers spot.2 = false := by
        rw [Token.covers, decide_eq_false_iff_not]
        omega
      simp [isBare, hcovers]
    show ps.filterMap Piece.stray? =
      ((text ++ rest).zipIdx place).filter (isBare (t :: ps.filterMap Piece.token?))
    rw [List.zipIdx_append, List.filter_append, List.filter_eq_nil_iff.mpr hown, List.nil_append,
      List.filter_congr hrest]
    exact ih
  | @stray place c rest ps tail ih =>
    have hbare : isBare (ps.filterMap Piece.token?) (c, place) = true := by
      rw [isBare, Bool.not_eq_true', List.any_eq_false]
      intro t ht hcovers
      have hbounds := (tail.liesIn t ht).bounds
      rw [Token.covers, decide_eq_true_eq] at hcovers
      omega
    show (c, place) :: ps.filterMap Piece.stray? =
      ((c, place) :: rest.zipIdx (place + 1)).filter (isBare (ps.filterMap Piece.token?))
    rw [List.filter_cons_of_pos hbare, ih]

/-- The end of a text covers nothing. -/
theorem isBare_tokens (text : List Char) : isBare (tokens text) = isBare (cutTokens text) := by
  funext spot
  have hfinish : (finishOf text).covers spot.2 = false := by
    rw [Token.covers, decide_eq_false_iff_not, Token.behind, finishOf, String.length_empty]
    omega
  rw [isBare, isBare, tokens_eq, List.any_append, List.any_cons, hfinish, List.any_nil,
    Bool.or_false, Bool.or_false]

theorem strays_eq (text : List Char) :
    strays text = (normalForm text).zipIdx.filter (isBare (tokens text)) := by
  rw [isBare_tokens]
  exact (tiles_pieces text).strays_eq

/-! ## Texts -/

/-- The first character of a text that none of the tokens covers, with its place. -/
def firstBare (ts : List Token) (cs : List Char) : Option (Char × Nat) :=
  cs.zipIdx.find? (isBare ts)

/-- The tokens stand in these characters in order and apart from one another.  None of them is empty
    but the last one, which is the only end and stands behind the characters. -/
structure StandIn (ts : List Token) (cs : List Char) : Prop where
  finish : ∃ before, ts = before ++ [⟨.finish, "", cs.length⟩] ∧
    ∀ t ∈ before, t.kind ≠ .finish ∧ t.text ≠ ""
  ordered : ts.Pairwise fun t u => t.position < u.position
  apart : ts.Pairwise fun t u => t.behind ≤ u.position
  texts : ∀ t ∈ ts, ∃ place : Nat, t.position = place ∧ t.text.toList <+: cs.drop place

/-- The tokens of a text stand in its normal form. -/
theorem standIn_tokens (text : List Char) : StandIn (tokens text) (normalForm text) := by
  have htiles := tiles_pieces text
  have hlies : ∀ t ∈ cutTokens text, t.LiesIn 0 (normalForm text) := htiles.liesIn
  have hend : ∀ t ∈ cutTokens text, t.behind ≤ (finishOf text).position := by
    intro t ht
    have hbounds := (hlies t ht).bounds
    rw [Nat.zero_add] at hbounds
    exact hbounds.2.2
  have happart : (tokens text).Pairwise fun t u => t.behind ≤ u.position := by
    rw [tokens_eq, List.pairwise_append]
    exact ⟨htiles.apart, List.pairwise_singleton _ _, by simpa using hend⟩
  refine ⟨⟨cutTokens text, tokens_eq text, fun t ht => ⟨(hlies t ht).kind, (hlies t ht).nonempty⟩⟩,
    ?_, happart, ?_⟩
  · have hstep : ∀ t ∈ cutTokens text, t.position < t.behind := fun t ht => (hlies t ht).bounds.2.1
    rw [tokens_eq, List.pairwise_append] at happart ⊢
    refine ⟨happart.1.imp_of_mem fun ht _ hle => Int.lt_of_lt_of_le (hstep _ ht) hle,
      List.pairwise_singleton _ _, fun t ht u hu => ?_⟩
    exact Int.lt_of_lt_of_le (hstep t ht) (happart.2.2 t ht u hu)
  · intro t ht
    rw [tokens_eq, List.mem_append, List.mem_singleton] at ht
    rcases ht with ht | rfl
    · obtain ⟨n, hplace, htext⟩ := (hlies t ht).text
      rw [Nat.zero_add] at hplace
      exact ⟨n, hplace, htext⟩
    · exact ⟨(normalForm text).length, rfl, List.nil_prefix⟩

/-- **Tiling.**  The tokens of a text stand in its normal form, each being what is there.  Lenient
    reading always gives them; strict reading gives the same ones if they cover all of the normal
    form, and else refuses the first character that none of them covers. -/
theorem readTokens_tiles (text : String) :
    StandIn (tokens text.toList) (normalForm text.toList) ∧
      readTokens false text = .ok (tokens text.toList) ∧
      readTokens true text =
        match firstBare (tokens text.toList) (normalForm text.toList) with
        | none => .ok (tokens text.toList)
        | some (c, place) => .error (.stray c place) := by
  refine ⟨standIn_tokens _, rfl, ?_⟩
  rw [firstBare, ← List.head?_filter, ← strays_eq, readTokens.eq_def]
  cases strays text.toList with
  | nil => rfl
  | cons spot rest => rfl

example : firstBare (tokens "2d6 $ 3".toList) "2d6$3".toList = some ('$', 3) := by decide +kernel

end Tabletop
