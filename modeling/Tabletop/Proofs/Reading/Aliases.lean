/-
  What becomes of an alias in a text that is read.

  1. **Tokens** — the meaning of an alias begins and ends with a digit, and blanks do not keep
     numbers apart.  So its first number takes the digits in front of it, and its last number those
     behind it; the size of the dice lies between letters and stays.
  2. **Texts** — only a variable could keep digits in front of an alias for itself, but in what is
     read no number stands right behind a variable.  So the tokens of the alias are told by what
     stands on its two sides, and they are one term, unless a pool is named right before them.
-/
import Mathlib.Data.List.DropRight
import Tabletop.Proofs.Evaluation.Stages
import Tabletop.Proofs.Notation.Digits
import Tabletop.Proofs.Notation.Divided
import Tabletop.Proofs.Reading.Placed
import Tabletop.Proofs.Rendering.Basic
import Tabletop.Proofs.Text.Standing

namespace Tabletop

open Alias Grammar Text

/-! ## Tokens -/

/-- What is cut of the meaning of an alias, and of digits right in front of it and behind it. -/
def meaningTokens (extreme : Extreme) (place : Nat) (before behind : List Char) : List Token := [
  ⟨.number, String.ofList (before ++ ['2']), place⟩,
  ⟨.dice, "d", place + before.length + 1⟩,
  ⟨.number, "20", place + before.length + 2⟩,
  ⟨.modifier, SelectionAction.keep.word extreme, place + before.length + 4⟩,
  ⟨.number, String.ofList ('1' :: behind), place + before.length + 6⟩]

/-- The value of digits. -/
def valueOf (digits : List Char) : Nat := Nat.ofDigitChars 10 digits 0

/-- The tokens are dice and a selection among them.  The digits in front count tenfold, with a 2
    behind them; those behind follow a 1. -/
theorem diceRun_meaningTokens (extreme : Extreme) (place : Nat) (before behind : List Char) :
    DiceRun (meaningTokens extreme place before behind) (.number (10 * valueOf before + 2 : Nat))
      (.number 20) ⟨.keep, extreme, .number (10 ^ behind.length + valueOf behind : Nat)⟩ := by
  have hnumber : ∀ (digits : List Char) (place : Int),
      IsOperand ⟨.number, String.ofList digits, place⟩ (.number (valueOf digits)) :=
    fun digits place => by
      have h : IsOperand ⟨.number, String.ofList digits, place⟩ _ := .number rfl
      rwa [String.toList_ofList] at h
  have hcount : valueOf (before ++ ['2']) = 10 * valueOf before + 2 := by
    rw [valueOf, Nat.ofDigitChars_append]
    rfl
  have hkept : valueOf ('1' :: behind) = 10 ^ behind.length + valueOf behind := by
    rw [valueOf, Nat.ofDigitChars_cons, Nat.ofDigitChars_eq_ofDigitChars_zero]
    exact congrArg (· + valueOf behind) (Nat.mul_one _)
  have hlisted : (SelectionAction.keep.word extreme, .keep, extreme) ∈ selectionWords := by
    cases extreme <;> decide
  rw [← hcount, ← hkept]
  exact .mk (hnumber _ _) rfl (hnumber "20".toList _) hlisted ⟨rfl, rfl⟩ (hnumber _ _)

/-- The glyphs of the word that keeps dice. -/
def keepGlyphs (extreme : Extreme) : List Glyph :=
  (SelectionAction.keep.word extreme).toList.map (⟨·, false⟩)

theorem glyphsFrom_meaning (extreme : Extreme) (mark : Bool) :
    glyphsFrom mark (meaningOf extreme) =
      ⟨'2', mark⟩ :: ⟨'d', false⟩ :: ⟨'2', false⟩ :: ⟨'0', false⟩ ::
        (keepGlyphs extreme ++ [⟨'1', false⟩]) := by
  cases extreme <;> rfl

theorem piecesFrom_keepGlyphs (extreme : Extreme) (place : Nat) (gs : List Glyph) :
    piecesFrom true place (keepGlyphs extreme ++ gs) =
      .token ⟨.modifier, SelectionAction.keep.word extreme, place⟩ ::
        piecesFrom false (place + 2) gs := by
  cases extreme with
  | high =>
    have hlex : lexeme? true 'k' (⟨'h', false⟩ :: gs) = some (.modifier, 1) := rfl
    exact piecesFrom_of_lexeme? hlex false place
  | low =>
    have hlex : lexeme? true 'k' (⟨'l', false⟩ :: gs) = some (.modifier, 1) := rfl
    exact piecesFrom_of_lexeme? hlex false place

/-- What is cut of a meaning between the digits that it begins and ends with. -/
theorem piecesFrom_die (extreme : Extreme) (place : Nat) (gs : List Glyph) :
    piecesFrom true place
        (⟨'d', false⟩ :: ⟨'2', false⟩ :: ⟨'0', false⟩ :: (keepGlyphs extreme ++ gs)) =
      .token ⟨.dice, "d", place⟩ :: .token ⟨.number, "20", place + 1⟩ ::
        .token ⟨.modifier, SelectionAction.keep.word extreme, place + 3⟩ ::
          piecesFrom false (place + 5) gs := by
  have hsize : lexeme? false '2' (⟨'0', false⟩ :: (keepGlyphs extreme ++ gs)) =
      some (.number, 1) := by
    cases extreme <;> rfl
  have hchoice := piecesFrom_keepGlyphs extreme (place + 3) gs
  generalize keepGlyphs extreme ++ gs = more at hsize hchoice
  have hdie : lexeme? true 'd' (⟨'2', false⟩ :: ⟨'0', false⟩ :: more) = some (.dice, 0) := rfl
  have hdice : piecesFrom true place (⟨'d', false⟩ :: ⟨'2', false⟩ :: ⟨'0', false⟩ :: more) =
      .token ⟨.dice, "d", place⟩ ::
        piecesFrom false (place + 1) (⟨'2', false⟩ :: ⟨'0', false⟩ :: more) :=
    piecesFrom_of_lexeme? hdie false place
  have htwenty : piecesFrom false (place + 1) (⟨'2', false⟩ :: ⟨'0', false⟩ :: more) =
      .token ⟨.number, "20", place + 1⟩ :: piecesFrom true (place + 3) more :=
    piecesFrom_of_lexeme? hsize false (place + 1)
  rw [hdice, htwenty, hchoice]
  rfl

/-- Digits in front of a meaning, the meaning, and the digits behind it are cut so. -/
theorem piecesFrom_meaning {digits : List Glyph} (h : ∀ d ∈ digits, isDigit d.char = true)
    (extreme : Extreme) (mark afterOperand : Bool) (place : Nat) (gs : List Glyph) :
    ∃ rest, piecesFrom afterOperand place
        (digits ++ (glyphsFrom mark (meaningOf extreme) ++ gs)) =
      (meaningTokens extreme place (digits.map (·.char))
        ((gs.takeWhile (isDigit ·.char)).map (·.char))).map .token ++ rest := by
  have hfirst : ∀ d ∈ digits ++ [⟨'2', mark⟩], isDigit d.char = true :=
    List.forall_mem_append.mpr ⟨h, by simp; decide⟩
  have hlast : ∀ d ∈ (⟨'1', false⟩ : Glyph) :: gs.takeWhile (isDigit ·.char),
      isDigit d.char = true := List.forall_mem_cons.mpr ⟨by decide, fun d hd =>
    List.all_eq_true.mp List.all_takeWhile d hd⟩
  have hend : ∀ g ∈ (gs.dropWhile (isDigit ·.char)).head?, isDigit g.char = false := by
    intro g hg
    have hstop := List.head?_dropWhile_not (fun g : Glyph => isDigit g.char) gs
    rw [hg] at hstop
    exact hstop
  have hletter : ∀ more : List Glyph, ∀ g ∈ (⟨'d', false⟩ :: more).head?,
      isDigit g.char = false := by
    rintro more g ⟨⟩
    rfl
  have hsplit : digits ++ (glyphsFrom mark (meaningOf extreme) ++ gs) =
      (digits ++ [⟨'2', mark⟩]) ++ ⟨'d', false⟩ :: ⟨'2', false⟩ :: ⟨'0', false⟩ ::
        (keepGlyphs extreme ++
          ((⟨'1', false⟩ :: gs.takeWhile (isDigit ·.char)) ++ gs.dropWhile (isDigit ·.char))) := by
    rw [List.cons_append, List.takeWhile_append_dropWhile, glyphsFrom_meaning]
    simp only [List.cons_append, List.append_assoc, List.nil_append]
  have hplace : place + (digits ++ [(⟨'2', mark⟩ : Glyph)]).length =
      place + (digits.map (·.char)).length + 1 := by
    rw [List.length_append, List.length_map, List.length_singleton, Nat.add_assoc]
  rw [hsplit, piecesFrom_run (by simp) hfirst (hletter _), hplace, piecesFrom_die,
    piecesFrom_run (List.cons_ne_nil _ _) hlast hend, List.map_append]
  exact ⟨_, rfl⟩

/-! ## Texts -/

/-- What is read in front of an alias, without blanks. -/
def inkBefore (front : List Char) : List Char := withoutBlanks (expandAll front)

/-- What is read behind an alias and its die, without blanks. -/
def inkBehind (back : List Char) : List Char := withoutBlanks (expandAll (Alias.behind back))

/-- The digits right in front of an alias. -/
def digitsBefore (front : List Char) : List Char := (inkBefore front).rtakeWhile isDigit

/-- The digits right behind an alias. -/
def digitsBehind (back : List Char) : List Char := (inkBehind back).takeWhile isDigit

/-- The place of the first of those digits, or of the alias. -/
def placeOf (front : List Char) : Nat := ((inkBefore front).rdropWhile isDigit).length

/-- What ends free carries no name on. -/
theorem LeavesFree.stops {text : List Char} (h : LeavesFree text) :
    endsBlank false text = true ∨ ∀ l ∈ (glyphsFrom false text).getLast?,
      isNameChar l.char = false ∧ l.char ≠ '@' := by
  rcases h with rfl | ⟨c, hc, hword, hmark⟩
  · exact Or.inr nofun
  · obtain ⟨init, rfl⟩ := List.getLast?_eq_some_iff.mp hc
    cases hblank : isBlank c with
    | true =>
      rw [endsBlank_append]
      exact Or.inl hblank
    | false =>
      have hname : isNameChar c = false := Bool.eq_false_iff.mpr fun hname => by
        rw [isWordChar_of_isNameChar hname] at hword
        cases hword
      refine Or.inr fun l hl => ?_
      rw [glyphsFrom_append_text, glyphsFrom_of_not_blank hblank] at hl
      rw [glyphsFrom, List.getLast?_concat] at hl
      cases hl
      exact ⟨hname, hmark⟩

/-- Where the run that ends a list begins. -/
theorem split_run {α : Type} {p : α → Bool} {before run : List α} (hrun : ∀ x ∈ run, p x = true)
    (hlast : ∀ x ∈ before.getLast?, p x = false) :
    (before ++ run).rtakeWhile p = run ∧ (before ++ run).rdropWhile p = before := by
  induction run using List.reverseRecOn with
  | nil =>
    have hstop : ∀ hne : before ≠ [], ¬ p (before.getLast hne) = true := fun hne =>
      Bool.eq_false_iff.mp (hlast _ (List.getLast?_eq_some_getLast hne))
    rw [List.append_nil]
    exact ⟨List.rtakeWhile_eq_nil_iff.mpr hstop, List.rdropWhile_eq_self_iff.mpr hstop⟩
  | append_singleton run x ih =>
    rw [List.forall_mem_append] at hrun
    have hx : p x = true := hrun.2 x (List.mem_singleton_self x)
    obtain ⟨htake, hdrop⟩ := ih hrun.1
    rw [← List.append_assoc, List.rtakeWhile_concat_pos p _ x hx,
      List.rdropWhile_concat_pos p _ x hx, htake, hdrop]
    exact ⟨rfl, rfl⟩

section

variable {expression : String} {front back : List Char} {extreme : Extreme}

/-- What is cut of a text with an alias that stands free: the tokens of its meaning take all digits
    behind it, and those in front of it up to where another token ends. -/
theorem cutTokens_standing
    (htext : lower expression.toList = front ++ (Alias.word extreme ++ back))
    (hfree : StandsFree front back) :
    ∃ before digits ps ts, glyphsFrom false (expandAll front) = before ++ digits ∧
      LeadTo ps before digits ∧ cutTokens (withoutAliases expression).toList =
        ps.filterMap Piece.token? ++ (meaningTokens extreme before.length (digits.map (·.char))
          (digitsBehind back) ++ ts) := by
  obtain ⟨hexpanded, hleaves⟩ := expandAll_standing extreme hfree
  generalize hmark : endsBlank false (expandAll front) = mark
  have hmeaning : endsBlank mark (meaningOf extreme) = false := by cases extreme <;> rfl
  have hbehind : ((glyphsFrom false (expandAll (Alias.behind back))).takeWhile
      (isDigit ·.char)).map (·.char) = digitsBehind back := by
    rw [digitsBehind, inkBehind, ← map_char_glyphsFrom false, List.takeWhile_map]
    rfl
  have hpieces : pieces (withoutAliases expression).toList =
      piecesFrom false 0 (glyphsFrom false (expandAll front) ++
        (glyphsFrom mark (meaningOf extreme) ++
          glyphsFrom false (expandAll (Alias.behind back)))) := by
    rw [pieces_withoutAliases, piecesOf, htext, hexpanded, glyphsFrom_append_text, hmark,
      glyphsFrom_append_text, hmeaning]
  generalize glyphsFrom false (expandAll (Alias.behind back)) = gs at hbehind hpieces
  obtain ⟨inner, hinner⟩ : ∃ inner, glyphsFrom mark (meaningOf extreme) = ⟨'2', mark⟩ :: inner :=
    ⟨_, glyphsFrom_meaning extreme mark⟩
  -- The meaning begins with a digit, which the digits in front of it run up to.
  obtain ⟨before, digits, ps, afterOperand, hgs, hlead, hcut⟩ :=
    piecesFrom_digit (g := ⟨'2', mark⟩) rfl (hmark ▸ hleaves.stops) (inner ++ gs) false 0
  obtain ⟨rest, hrest⟩ :=
    piecesFrom_meaning hlead.digits extreme mark afterOperand before.length gs
  refine ⟨before, digits, ps, rest.filterMap Piece.token?, hgs, hlead, ?_⟩
  rw [hinner, List.cons_append] at hpieces hrest
  rw [cutTokens, hpieces, hcut, Nat.zero_add, hrest, hbehind, List.filterMap_append,
    List.filterMap_append, List.filterMap_map]
  congr 2

/-- In what is read they take all digits in front of the alias: one that is left over would be part
    of a variable, with a number right behind it. -/
theorem cutTokens_alias
    (htext : lower expression.toList = front ++ (Alias.word extreme ++ back))
    (hfree : StandsFree front back) {e : Expr}
    (h : Sentence (cutTokens (withoutAliases expression).toList) e) :
    ∃ before after, cutTokens (withoutAliases expression).toList =
      before ++ (meaningTokens extreme (placeOf front) (digitsBefore front) (digitsBehind back) ++
        after) := by
  obtain ⟨before, digits, ps, ts, hgs, hlead, hcut⟩ := cutTokens_standing htext hfree
  have hchain := h.isChain
  have hstop : ∀ c ∈ (before.map (·.char)).getLast?, isDigit c = false := by
    intro c hc
    rw [List.getLast?_map] at hc
    obtain ⟨l, hl, rfl⟩ := Option.mem_map.mp hc
    rw [← Bool.not_eq_true]
    intro hdigit
    obtain ⟨t, ht, hnamed⟩ := hlead.last l hl hdigit
    obtain ⟨init, rfl⟩ := List.getLast?_eq_some_iff.mp ht
    rw [hcut, List.filterMap_append, List.isChain_append] at hchain
    have hpair : TokenKind.number ∈ followers t.kind :=
      hchain.2.2 t (by simp [Piece.token?]) _ rfl
    rw [hnamed] at hpair
    exact absurd hpair (by decide)
  have hchars : inkBefore front = before.map (·.char) ++ digits.map (·.char) := by
    rw [inkBefore, ← map_char_glyphsFrom false, hgs, List.map_append]
  obtain ⟨htake, hdrop⟩ := split_run (List.forall_mem_map.mpr hlead.digits) hstop
  refine ⟨ps.filterMap Piece.token?, ts, ?_⟩
  rw [hcut, digitsBefore, placeOf, hchars, htake, hdrop, List.length_map]

/-- **Aliases.**  An alias in a text that is read takes the digits on its two sides: those in front
    go before the 2 of its meaning, those behind go behind the 1.  Its tokens are dice of that count
    with twenty faces, of which it keeps that many first of all; or if a pool is named right before
    it, the pools of a Hope/Fear roll take its count and the 20, and the roll keeps that many.  So
    it stays what it means just if no digits but zeros are in front, none behind, and no pool is
    named there. -/
theorem ofText_alias (htext : lower expression.toList = front ++ (Alias.word extreme ++ back))
    (hfree : StandsFree front back) {strict : Bool} {limit : Int} {e : Expr}
    (h : (Expr.ofText strict limit (withoutAliases expression)).1 = .ok e) :
    ∃ before after, cutTokens (withoutAliases expression).toList =
        before ++ (meaningTokens extreme (placeOf front) (digitsBefore front) (digitsBehind back) ++
          after) ∧
      Placed before (.number (10 * valueOf (digitsBefore front) + 2 : Nat)) (.number 20)
        ⟨.keep, extreme, .number
          (10 ^ (digitsBehind back).length + valueOf (digitsBehind back) : Nat)⟩ e.terms := by
  have hsentence := (ofText_eq_ok.mp h).2.sentence
  obtain ⟨before, after, hcut⟩ := cutTokens_alias htext hfree hsentence
  exact ⟨before, after, hcut,
    hsentence.places (diceRun_meaningTokens extreme _ _ _) before after hcut⟩

end

/-- A pool named in front of one alias, and digits on the two sides of another one. -/
theorem ofText_alias_digits :
    (Expr.ofText true 1 (withoutAliases "dh a adv + 5 dis d20 7")).1 =
        .ok (.binary .add
          (.hopeFear (.number 2) (.number 20) [.selection ⟨.keep, .high, .number 1⟩])
          (.dice (.number 52) (.faces (.number 20)) [.selection ⟨.keep, .low, .number 17⟩])) ∧
      (∃ before after, cutTokens (withoutAliases "dh a adv + 5 dis d20 7").toList =
          before ++ (meaningTokens .high 3 [] [] ++ after) ∧
        Placed before (.number 2) (.number 20) ⟨.keep, .high, .number 1⟩
          [.hopeFear (.number 2) (.number 20) [.selection ⟨.keep, .high, .number 1⟩],
            .dice (.number 52) (.faces (.number 20)) [.selection ⟨.keep, .low, .number 17⟩]]) ∧
      ∃ before after, cutTokens (withoutAliases "dh a adv + 5 dis d20 7").toList =
          before ++ (meaningTokens .low 11 ['5'] ['7'] ++ after) ∧
        Placed before (.number 52) (.number 20) ⟨.keep, .low, .number 17⟩
          [.hopeFear (.number 2) (.number 20) [.selection ⟨.keep, .high, .number 1⟩],
            .dice (.number 52) (.faces (.number 20)) [.selection ⟨.keep, .low, .number 17⟩]] := by
  have hread : (Expr.ofText true 1 (withoutAliases "dh a adv + 5 dis d20 7")).1 =
      .ok (.binary .add
        (.hopeFear (.number 2) (.number 20) [.selection ⟨.keep, .high, .number 1⟩])
        (.dice (.number 52) (.faces (.number 20)) [.selection ⟨.keep, .low, .number 17⟩])) := by
    cbv
  have hpool : lower "dh a adv + 5 dis d20 7".toList =
      "dh a ".toList ++ (Alias.word .high ++ " + 5 dis d20 7".toList) := by decide +kernel
  have hpoolFree : StandsFree "dh a ".toList " + 5 dis d20 7".toList :=
    ⟨Or.inr ⟨' ', rfl, by decide⟩, by decide⟩
  have hdice : lower "dh a adv + 5 dis d20 7".toList =
      "dh a adv + 5 ".toList ++ (Alias.word .low ++ " d20 7".toList) := by decide +kernel
  have hdiceFree : StandsFree "dh a adv + 5 ".toList " d20 7".toList :=
    ⟨Or.inr ⟨' ', rfl, by decide⟩, by decide⟩
  have hbefore : (placeOf "dh a ".toList, digitsBefore "dh a ".toList,
      digitsBehind " + 5 dis d20 7".toList) = (3, [], []) := by decide +kernel
  have hbehind : (placeOf "dh a adv + 5 ".toList, digitsBefore "dh a adv + 5 ".toList,
      digitsBehind " d20 7".toList) = (11, ['5'], ['7']) := by decide +kernel
  simp only [Prod.mk.injEq] at hbefore hbehind
  have htold := ofText_alias hpool hpoolFree hread
  have htold' := ofText_alias hdice hdiceFree hread
  rw [hbefore.1, hbefore.2.1, hbefore.2.2] at htold
  rw [hbehind.1, hbehind.2.1, hbehind.2.2] at htold'
  exact ⟨hread, htold, htold'⟩

end Tabletop
