/-
  Which of the small sigmas a text has makes no difference to its tokens.

  What a capital sigma is lowered to hangs on the letters around it, so the same text is lowered
  differently behind a letter and behind a digit.  But the notation knows neither of the two small
  sigmas.  So whichever a text has, it is cut into the same tokens, and the same places are strays:
  all that is done here goes through with one sigma written for the other (`levelled`).
-/
import Tabletop.Proofs.Notation.Cuts
import Tabletop.Proofs.Notation.Names

namespace Tabletop

open Text

/-! ## One sigma for the other -/

/-- A character, with the common small sigma for the final one. -/
def levelled (c : Char) : Char := if c = finalSigma then smallSigma else c

/-- A glyph, the same done to its character. -/
def Glyph.levelled (g : Glyph) : Glyph := { g with char := Tabletop.levelled g.char }

/-- A piece, the same done to a stray character. -/
def Piece.levelled : Piece → Piece
  | token t => .token t
  | stray c position => .stray (Tabletop.levelled c) position

/-- Only the final sigma is changed. -/
theorem levelled_of_ne {c : Char} (h : c ≠ finalSigma) : levelled c = c := if_neg h

/-- What holds of neither sigma or of both holds of a character before and after. -/
theorem apply_levelled {α : Type} {p : Char → α} (h : p smallSigma = p finalSigma) (c : Char) :
    p (levelled c) = p c := by
  rw [levelled]
  split
  · next hc => rw [hc, h]
  · rfl

/-- A character that is no sigma comes of itself only. -/
theorem levelled_eq_iff {c e : Char} (hsmall : e ≠ smallSigma) (hfinal : e ≠ finalSigma) :
    levelled c = e ↔ c = e := by
  have hsame := apply_levelled (p := fun c => c = e)
    (propext ⟨fun h => absurd h.symm hsmall, fun h => absurd h.symm hfinal⟩) c
  rw [← hsame]

/-! ## Pieces -/

/-- No token begins with a sigma. -/
theorem lexeme?_finalSigma (afterOperand : Bool) (rest : List Glyph) :
    lexeme? afterOperand finalSigma rest = none := rfl

theorem lexeme?_smallSigma (afterOperand : Bool) (rest : List Glyph) :
    lexeme? afterOperand smallSigma rest = none := rfl

/-- A run of glyphs is as long as before, if its test does not tell the sigmas apart. -/
theorem length_takeWhile_levelled {p : Glyph → Bool} (h : ∀ g : Glyph, p g.levelled = p g)
    (gs : List Glyph) :
    ((gs.map Glyph.levelled).takeWhile p).length = (gs.takeWhile p).length := by
  have hp : p ∘ Glyph.levelled = p := funext h
  rw [List.takeWhile_map, List.length_map, hp]

/-- The same token begins whichever of the sigmas are there. -/
theorem lexeme?_levelled (afterOperand : Bool) (c : Char) (rest : List Glyph) :
    lexeme? afterOperand (levelled c) (rest.map Glyph.levelled) = lexeme? afterOperand c rest := by
  by_cases hc : c = finalSigma
  · rw [hc, lexeme?_finalSigma]
    exact lexeme?_smallSigma afterOperand _
  have hdigits : ((rest.map Glyph.levelled).takeWhile (isDigit ·.char)).length =
      (rest.takeWhile (isDigit ·.char)).length :=
    length_takeWhile_levelled (fun g => apply_levelled (p := isDigit) (by decide) g.char) rest
  have hname : ((rest.map Glyph.levelled).takeWhile (·.carriesName)).length =
      (rest.takeWhile (·.carriesName)).length := by
    refine length_takeWhile_levelled (fun g => ?_) rest
    rw [Glyph.carriesName, Glyph.carriesName]
    exact congrArg (· && !g.opensWord) (apply_levelled (p := isNameChar) (by decide) g.char)
  have hnext : (rest.map Glyph.levelled).head?.map (·.char) =
      (rest.head?.map (·.char)).map levelled := by
    cases rest <;> rfl
  -- What is asked of the next glyph is the same of either sigma.
  have hsome : ∀ e ∈ "hlfo=".toList, (rest.head?.map (·.char)).map levelled = some e ↔
      rest.head?.map (·.char) = some e := by
    intro e he
    have hne : ∀ e ∈ "hlfo=".toList, e ≠ smallSigma ∧ e ≠ finalSigma := fun e he =>
      ⟨ne_of_mem_of_not_mem he (by decide), ne_of_mem_of_not_mem he (by decide)⟩
    cases rest.head?.map (·.char) with
    | none => simp
    | some n => simp [levelled_eq_iff (hne e he).1 (hne e he).2]
  have hany : ∀ p : Char → Bool, p smallSigma = p finalSigma →
      ((rest.head?.map (·.char)).map levelled).any p = (rest.head?.map (·.char)).any p := by
    intro p hp
    cases rest.head?.map (·.char) with
    | none => rfl
    | some n => exact apply_levelled hp n
  rw [levelled_of_ne hc, lexeme?, lexeme?, hdigits, hname, hnext, hany _ (by decide),
    hany _ (by decide)]
  simp only [hsome 'h' (by decide), hsome 'l' (by decide), hsome 'f' (by decide),
    hsome '=' (by decide), hsome 'o' (by decide)]

/-- No token takes a sigma. -/
theorem levelled_of_lexeme? {afterOperand : Bool} {c : Char} {rest : List Glyph}
    {kind : TokenKind} {extra : Nat} (h : lexeme? afterOperand c rest = some (kind, extra)) :
    ∀ g ∈ rest.take extra, levelled g.char = g.char := by
  intro g hg
  refine levelled_of_ne fun hsigma => ?_
  cases extra_of_lexeme? h with
  | digits =>
    have hdigit := of_mem_take_length_takeWhile hg
    rw [hsigma] at hdigit
    cases hdigit
  | name =>
    have hname := of_mem_take_length_takeWhile hg
    rw [Glyph.carriesName, hsigma] at hname
    cases hname
  | none => simp at hg
  | one next five =>
    cases rest with
    | nil => cases next
    | cons g' rest =>
      obtain rfl : g = g' := by simpa using hg
      have hnext : some g.char = _ := next
      rw [hsigma] at hnext
      cases hnext
      exact absurd five (by decide)

/-- With one sigma for the other the same tokens are cut, and the same places are strays. -/
theorem piecesFrom_levelled (afterOperand : Bool) (position : Nat) (gs : List Glyph) :
    piecesFrom afterOperand position (gs.map Glyph.levelled) =
      (piecesFrom afterOperand position gs).map Piece.levelled := by
  fun_induction piecesFrom afterOperand position gs with
  | case1 => rw [List.map_nil, List.map_nil, piecesFrom]
  | case2 afterOperand position g rest kind extra hlex text token ih =>
    have hne : g.char ≠ finalSigma := by
      intro hsigma
      rw [hsigma, lexeme?_finalSigma] at hlex
      cases hlex
    have htake : ((rest.map Glyph.levelled).take extra).map (·.char) =
        (rest.take extra).map (·.char) := by
      rw [← List.map_take, List.map_map]
      exact List.map_congr_left (levelled_of_lexeme? hlex)
    have hlex' : lexeme? afterOperand g.levelled.char (rest.map Glyph.levelled) =
        some (kind, extra) := (lexeme?_levelled afterOperand g.char rest).trans hlex
    have hhead : g.levelled.char = g.char := levelled_of_ne hne
    rw [List.map_cons, piecesFrom, hlex']
    dsimp only
    rw [htake, hhead, ← List.map_drop, List.map_cons]
    exact congrArg _ ih
  | case3 afterOperand position g rest hlex ih =>
    have hlex' : lexeme? afterOperand g.levelled.char (rest.map Glyph.levelled) = none :=
      (lexeme?_levelled afterOperand g.char rest).trans hlex
    rw [List.map_cons, piecesFrom, hlex']
    dsimp only
    rw [ih, List.map_cons]
    rfl

/-- No sigma stands in a token, so the tokens are the same. -/
theorem filterMap_token?_levelled (ps : List Piece) :
    (ps.map Piece.levelled).filterMap Piece.token? = ps.filterMap Piece.token? := by
  have hsame : Piece.token? ∘ Piece.levelled = Piece.token? := funext fun p => by cases p <;> rfl
  rw [List.filterMap_map, hsame]

/-- There are stray characters just if there were. -/
theorem filterMap_stray?_levelled (ps : List Piece) :
    (ps.map Piece.levelled).filterMap Piece.stray? = [] ↔ ps.filterMap Piece.stray? = [] := by
  rw [List.filterMap_map, List.filterMap_eq_nil_iff, List.filterMap_eq_nil_iff]
  refine forall₂_congr fun p _ => ?_
  cases p <;> simp [Piece.levelled, Piece.stray?]

/-! ## Texts that go on others -/

/-- The letters before a text tell in no more than a sigma. -/
theorem map_levelled_lowerFrom (afterCased afterCased' : Bool) (text : List Char) :
    (lowerFrom afterCased text).map levelled = (lowerFrom afterCased' text).map levelled := by
  induction text generalizing afterCased afterCased' with
  | nil => rfl
  | cons c rest ih =>
    have hhere : (lowerHere afterCased c rest).map levelled =
        (lowerHere afterCased' c rest).map levelled := by
      rw [lowerHere, lowerHere]
      split
      · -- Levelled, either of the two is the common one.
        have hsigma : ∀ final : Bool,
            [if final then finalSigma else smallSigma].map levelled = [smallSigma] := by decide
        rw [hsigma, hsigma]
      · rfl
    rw [lowerFrom, lowerFrom, List.map_append, List.map_append, hhere, ih]

/-- No sigma is a blank. -/
theorem withoutBlanks_levelled (text : List Char) :
    withoutBlanks (text.map levelled) = (withoutBlanks text).map levelled := by
  have hsame : (fun c => !isBlank c) ∘ levelled = fun c => !isBlank c :=
    funext fun c => congrArg (!·) (apply_levelled (p := isBlank) (by decide) c)
  rw [withoutBlanks, List.filter_map, hsame, withoutBlanks]

/-- The marks of the glyphs stay as they are. -/
theorem zip_levelled (cs : List Char) (marks : List Bool) :
    Glyph.zip (cs.map levelled) marks = (Glyph.zip cs marks).map Glyph.levelled := by
  induction cs generalizing marks with
  | nil => rfl
  | cons c cs ih =>
    rw [List.map_cons, zip_cons, zip_cons, ih, List.map_cons]
    rfl

/-- The glyphs of a text that goes on another one, `afterCased` telling whether that one ends in a
    letter. -/
def glyphsAfter (afterCased : Bool) (text : List Char) : List Glyph :=
  Glyph.zip (withoutBlanks (lowerFrom afterCased text)) (wordMarks false text)

/-- What stands before a text decides about its sigmas only. -/
theorem map_levelled_glyphsAfter (afterCased afterCased' : Bool) (text : List Char) :
    (glyphsAfter afterCased text).map Glyph.levelled =
      (glyphsAfter afterCased' text).map Glyph.levelled := by
  rw [glyphsAfter, glyphsAfter, ← zip_levelled, ← zip_levelled, ← withoutBlanks_levelled,
    ← withoutBlanks_levelled, map_levelled_lowerFrom afterCased afterCased']

/-- Behind a letter a text is cut as behind anything else, but for which sigma a stray is. -/
theorem piecesFrom_glyphsAfter (afterOperand : Bool) (position : Nat)
    (afterCased afterCased' : Bool) (text : List Char) :
    (piecesFrom afterOperand position (glyphsAfter afterCased text)).map Piece.levelled =
      (piecesFrom afterOperand position (glyphsAfter afterCased' text)).map Piece.levelled := by
  rw [← piecesFrom_levelled, ← piecesFrom_levelled,
    map_levelled_glyphsAfter afterCased afterCased']

/-- The tokens of a text do not hang on what stands before it. -/
theorem filterMap_token?_glyphsAfter (afterOperand : Bool) (position : Nat)
    (afterCased afterCased' : Bool) (text : List Char) :
    (piecesFrom afterOperand position (glyphsAfter afterCased text)).filterMap Piece.token? =
      (piecesFrom afterOperand position (glyphsAfter afterCased' text)).filterMap Piece.token? := by
  rw [← filterMap_token?_levelled, piecesFrom_glyphsAfter _ _ afterCased afterCased',
    filterMap_token?_levelled]

/-- Whether a text has stray characters does not hang on what stands before it. -/
theorem filterMap_stray?_glyphsAfter (afterOperand : Bool) (position : Nat)
    (afterCased afterCased' : Bool) (text : List Char) :
    (piecesFrom afterOperand position (glyphsAfter afterCased text)).filterMap Piece.stray? = [] ↔
      (piecesFrom afterOperand position (glyphsAfter afterCased' text)).filterMap Piece.stray? =
        [] := by
  rw [← filterMap_stray?_levelled, piecesFrom_glyphsAfter _ _ afterCased afterCased',
    filterMap_stray?_levelled]

/-- Lower case begins with a digit only where the text does. -/
theorem noDigit_lowerHere {c : Char} (h : isDigit c = false) (afterCased : Bool)
    (rest : List Char) : NoDigit (lowerHere afterCased c rest).head? := by
  generalize hhere : lowerHere afterCased c rest = here
  intro d hd
  cases hhere ▸ lowering_lowerHere afterCased c rest with
  | ascii low =>
    cases hd
    exact forall_ascii (P := fun c => isDigit c = false → isDigit c.toLower = false) (by decide)
      low h
  | kelvin _ =>
    cases hd
    rfl
  | dotted _ =>
    cases hd
    rfl
  | above _ _ above _ =>
    cases hd
    refine Bool.eq_false_iff.mpr fun hdigit => ?_
    have hname : isNameChar d = true := by simp [isNameChar, hdigit]
    exact absurd (toNat_lt_of_isNameChar hname) (Nat.not_lt.mpr above)

/-- A text that begins with no digit begins with none when it is lowered. -/
theorem noDigit_glyphsAfter {text : List Char} (h : NoDigit (ink text)) (afterCased : Bool) :
    NoDigit ((glyphsAfter afterCased text).head?.map (·.char)) := by
  rw [← List.head?_map, glyphsAfter, Glyph.map_char_zip]
  induction text generalizing afterCased with
  | nil => nofun
  | cons c rest ih =>
    rw [withoutBlanks_lowerFrom_cons]
    cases hc : isBlank c with
    | true =>
      have hrest : ink (c :: rest) = ink rest := List.find?_cons_of_neg (by simp [hc])
      rw [if_pos rfl, List.nil_append]
      exact ih (hrest ▸ h) _
    | false =>
      rw [ink_cons hc] at h
      have hlength := length_lowerHere afterCased c rest
      have hhead := noDigit_lowerHere (h c rfl) afterCased rest
      rw [if_neg Bool.false_ne_true]
      cases hhere : lowerHere afterCased c rest with
      | nil =>
        rw [hhere, List.length_nil] at hlength
        omega
      | cons d ds =>
        rw [hhere] at hhead
        exact hhead

end Tabletop
