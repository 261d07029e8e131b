/-
  The marks of variables among glyphs.

  1. **Extent** — behind its head a token takes a run of digits, a run that carries on a name, or
     one glyph that it looked at.  None of these is a mark, so no token goes on over one.
  2. **Tokens** — so of the tokens of glyphs, the variables are those that stand at a mark: each
     mark begins one, and takes the glyphs behind it that carry on its name.
-/
import Tabletop.Proofs.Notation.Lexeme

namespace Tabletop

open Text

/-! ## Extent of tokens -/

/-- How many glyphs a token takes behind its head: a run of digits, a run that carries on a name, or
    one glyph at most, and that only if it is one of five characters. -/
inductive Extra (rest : List Glyph) : Nat → Prop where
  | digits : Extra rest (rest.takeWhile (isDigit ·.char)).length
  | name : Extra rest (rest.takeWhile (·.carriesName)).length
  | none : Extra rest 0
  | one {e : Char} (next : rest.head?.map (·.char) = some e) (five : e ∈ "hlfo=".toList) :
      Extra rest 1

/-- How many glyphs a token takes that is neither a number nor a variable: one at most, and that
    only if it was looked at. -/
theorem short_of_lexeme? {P : Nat → Prop} {afterOperand : Bool} {c : Char} {rest : List Glyph}
    {kind : TokenKind} {extra : Nat} (hdigit : isDigit c = false) (hat : c ≠ '@')
    (h : lexeme? afterOperand c rest = some (kind, extra)) (hnone : P 0)
    (hone : ∀ e ∈ "hlfo=".toList, rest.head?.map (·.char) = some e → P 1) : P extra := by
  rw [lexeme?, if_neg (by simp [hdigit]), if_neg hat] at h
  generalize rest.head?.map (·.char) = next at h hone
  by_cases hd : c = 'd'
  · rw [if_pos hd] at h
    grind
  rw [if_neg hd] at h
  grind

theorem extra_of_lexeme? {afterOperand : Bool} {c : Char} {rest : List Glyph}
    {kind : TokenKind} {extra : Nat} (h : lexeme? afterOperand c rest = some (kind, extra)) :
    Extra rest extra := by
  by_cases hdigit : isDigit c = true
  · rw [lexeme?, if_pos hdigit] at h
    cases h
    exact .digits
  by_cases hat : c = '@'
  · rw [lexeme?, if_neg hdigit, if_pos hat] at h
    cases h
    exact .name
  exact short_of_lexeme? (Bool.eq_false_iff.mpr hdigit) hat h .none fun e he hnext =>
    .one hnext he

/-- A token ends where the glyphs do, at the latest. -/
theorem extra_le_of_lexeme? {afterOperand : Bool} {c : Char} {rest : List Glyph}
    {kind : TokenKind} {extra : Nat} (h : lexeme? afterOperand c rest = some (kind, extra)) :
    extra ≤ rest.length := by
  cases extra_of_lexeme? h with
  | digits => exact (List.takeWhile_sublist _).length_le
  | name => exact (List.takeWhile_sublist _).length_le
  | none => exact Nat.zero_le _
  | one next five =>
    cases rest with
    | nil => cases next
    | cons g rest => simp

/-- Only the mark of a variable begins one. -/
theorem of_lexeme?_named {afterOperand : Bool} {c : Char} {rest : List Glyph} {extra : Nat}
    (h : lexeme? afterOperand c rest = some (.named, extra)) :
    c = '@' ∧ extra = (rest.takeWhile (·.carriesName)).length := by
  have hc : c = '@' := by
    obtain ⟨name, hname, -⟩ := wellFormed_of_lexeme h 0
    rw [lexemeText, String.toList_ofList] at hname
    exact (List.cons.inj hname).1
  rw [hc, lexeme?, if_neg (by decide), if_pos rfl] at h
  cases h
  exact ⟨hc, rfl⟩

/-- A token among the pieces was cut where it stands. -/
theorem lexeme_of_mem_piecesFrom (afterOperand : Bool) (position : Nat) (gs : List Glyph) :
    ∀ t, .token t ∈ piecesFrom afterOperand position gs →
      ∃ before g more after extra, gs = before ++ g :: more ∧
        lexeme? after g.char more = some (t.kind, extra) ∧
        t = ⟨t.kind, lexemeText g.char more extra, (position + before.length : Nat)⟩ := by
  fun_induction piecesFrom afterOperand position gs with
  | case1 => simp
  | case2 afterOperand position g rest kind extra hlex =>
    rename_i ih
    intro t ht
    rcases List.mem_cons.mp ht with heq | ht
    · obtain rfl := Piece.token.inj heq
      exact ⟨[], g, rest, afterOperand, extra, rfl, hlex, rfl⟩
    · obtain ⟨before, h, more, after, extra', hdrop, hlex', heq⟩ := ih t ht
      have hle := extra_le_of_lexeme? hlex
      refine ⟨g :: rest.take extra ++ before, h, more, after, extra', ?_, hlex', ?_⟩
      · rw [List.append_assoc, ← hdrop, List.cons_append, List.take_append_drop]
      · have hplace : (g :: rest.take extra ++ before).length = 1 + extra + before.length := by
          simp only [List.length_append, List.length_cons, List.length_take]
          omega
        rw [hplace, ← Nat.add_assoc, ← Nat.add_assoc]
        exact heq
  | case3 afterOperand position g rest hlex ih =>
    intro t ht
    rcases List.mem_cons.mp ht with heq | ht
    · cases heq
    · obtain ⟨before, h, more, after, extra, rfl, hlex', heq⟩ := ih t ht
      refine ⟨g :: before, h, more, after, extra, rfl, hlex', ?_⟩
      rw [List.length_cons, Nat.add_comm before.length, ← Nat.add_assoc]
      exact heq

/-! ## Tokens at marks -/

/-- The variable that is cut at a mark, with these glyphs behind it. -/
def Token.ofMark (more : List Glyph) (position : Nat) : Token :=
  ⟨.named, String.ofList ('@' :: (more.takeWhile (·.carriesName)).map (·.char)), position⟩

theorem Token.ofMark_eq (more : List Glyph) (position : Nat) :
    Token.ofMark more position = ⟨.named, String.ofList ('@' ::
      (more.take (more.takeWhile (·.carriesName)).length).map (·.char)), position⟩ := by
  rw [ofMark, ← List.prefix_iff_eq_take.mp (List.takeWhile_prefix _)]

theorem lexeme?_mark (afterOperand : Bool) (more : List Glyph) :
    lexeme? afterOperand '@' more = some (.named, (more.takeWhile (·.carriesName)).length) := by
  rw [lexeme?, if_neg (by decide), if_pos rfl]

/-- No token goes on over a mark. -/
theorem ne_mark_of_lexeme? {afterOperand : Bool} {c : Char} {rest : List Glyph} {kind : TokenKind}
    {extra : Nat} (h : lexeme? afterOperand c rest = some (kind, extra)) :
    ∀ g ∈ rest.take extra, g.char ≠ '@' := by
  intro g hg hmark
  cases extra_of_lexeme? h with
  | digits =>
    have hdigit := of_mem_take_length_takeWhile hg
    rw [hmark] at hdigit
    cases hdigit
  | name =>
    have hname := of_mem_take_length_takeWhile hg
    rw [Glyph.carriesName, hmark] at hname
    cases hname
  | none => simp at hg
  | one next five =>
    cases rest with
    | nil => cases next
    | cons g' rest =>
      obtain rfl : g = g' := by simpa using hg
      have hnext : some g.char = _ := next
      rw [hmark] at hnext
      cases hnext
      exact absurd five (by decide)

/-- A token before a mark ends there, at the latest. -/
theorem extra_le_of_mark {afterOperand : Bool} {c : Char} {before more : List Glyph} {mark : Bool}
    {kind : TokenKind} {extra : Nat}
    (h : lexeme? afterOperand c (before ++ ⟨'@', mark⟩ :: more) = some (kind, extra)) :
    extra ≤ before.length := by
  refine Nat.le_of_not_lt fun hlt => ?_
  refine ne_mark_of_lexeme? h ⟨'@', mark⟩ ?_ rfl
  have hsplit : before ++ ⟨'@', mark⟩ :: more = (before ++ [⟨'@', mark⟩]) ++ more := by simp
  rw [hsplit, List.take_append]
  refine List.mem_append_left _ ?_
  rw [List.take_of_length_le (by simp; omega)]
  simp

/-- A variable among the pieces stands at a mark. -/
theorem mark_of_named (afterOperand : Bool) (position : Nat) (gs : List Glyph) :
    ∀ t, .token t ∈ piecesFrom afterOperand position gs → t.kind = .named →
      ∃ before mark more, gs = before ++ ⟨'@', mark⟩ :: more ∧
        t = Token.ofMark more (position + before.length) := by
  intro t ht hkind
  obtain ⟨before, g, more, after, extra, hgs, hlex, heq⟩ :=
    lexeme_of_mem_piecesFrom afterOperand position gs t ht
  rw [hkind] at hlex heq
  obtain ⟨hat, rfl⟩ := of_lexeme?_named hlex
  refine ⟨before, g.opensWord, more, by rw [hgs, ← hat], ?_⟩
  rw [heq, Token.ofMark_eq, lexemeText, hat]

/-- Each mark begins a variable. -/
theorem named_of_mark (afterOperand : Bool) (position : Nat) (gs : List Glyph) :
    ∀ {before : List Glyph} {mark : Bool} {more : List Glyph}, gs = before ++ ⟨'@', mark⟩ :: more →
      .token (Token.ofMark more (position + before.length)) ∈
        piecesFrom afterOperand position gs := by
  fun_induction piecesFrom afterOperand position gs with
  | case1 => simp
  | case2 afterOperand position g rest kind extra hlex =>
    rename_i ih
    intro before mark more hgs
    cases before with
    | nil =>
      obtain ⟨rfl, rfl⟩ := List.cons.inj hgs
      rw [lexeme?_mark] at hlex
      cases hlex
      rw [Token.ofMark_eq]
      exact List.mem_cons_self
    | cons first before =>
      obtain ⟨rfl, rfl⟩ := List.cons.inj hgs
      -- No token goes on past a mark, so it is still ahead.
      have hle := extra_le_of_mark hlex
      have hplace : position + 1 + extra + (before.drop extra).length =
          position + (g :: before).length := by
        rw [List.length_drop, List.length_cons]
        omega
      have hlater := ih (List.drop_append_of_le_length hle)
      rw [hplace] at hlater
      exact List.mem_cons_of_mem _ hlater
  | case3 afterOperand position g rest hlex ih =>
    intro before mark more hgs
    cases before with
    | nil =>
      obtain ⟨rfl, rfl⟩ := List.cons.inj hgs
      rw [lexeme?_mark] at hlex
      cases hlex
    | cons first before =>
      obtain ⟨rfl, rfl⟩ := List.cons.inj hgs
      have hlater := ih rfl
      rw [Nat.add_assoc, Nat.add_comm 1] at hlater
      exact List.mem_cons_of_mem _ hlater

end Tabletop
