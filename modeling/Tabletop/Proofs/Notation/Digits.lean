/-
  The number that a digit of a text belongs to.

  1. **Before the digit** — only numbers and variables go on over digits.  So what is cut before a
     digit that is no part of a name ends where the run of digits before it begins, or where a
     variable has taken some of them (`piecesFrom_digit`).
  2. **The run** — from there on the digits are one number, up to the last one that follows.
-/
import Tabletop.Proofs.Notation.Blanks

namespace Tabletop

open Text

/-! ## Runs -/

/-- A run that is longer than the glyphs before a place takes all of them, and the one there. -/
theorem of_length_lt_takeWhile {p : Glyph → Bool} {g : Glyph} {gs rest : List Glyph}
    (h : gs.length < ((gs ++ g :: rest).takeWhile p).length) :
    (∀ l ∈ gs, p l = true) ∧ p g = true := by
  rw [List.takeWhile_append] at h
  split at h
  · next hall =>
    refine ⟨List.takeWhile_eq_self_iff.mp ((List.takeWhile_sublist p).eq_of_length hall), ?_⟩
    by_contra hg
    rw [List.takeWhile_cons_of_neg hg, List.append_nil] at h
    exact Nat.lt_irrefl _ h
  · have hle := (List.takeWhile_sublist (l := gs) p).length_le
    omega

/-- A run of digits is one number. -/
theorem piecesFrom_run {digits : List Glyph} (hne : digits ≠ [])
    (h : ∀ d ∈ digits, isDigit d.char = true) {gs : List Glyph}
    (hend : ∀ g ∈ gs.head?, isDigit g.char = false) (afterOperand : Bool) (place : Nat) :
    piecesFrom afterOperand place (digits ++ gs) =
      .token ⟨.number, String.ofList (digits.map (·.char)), place⟩ ::
        piecesFrom true (place + digits.length) gs := by
  obtain ⟨d, ds, rfl⟩ := List.exists_cons_of_ne_nil hne
  rw [List.forall_mem_cons] at h
  have hgs : gs.takeWhile (isDigit ·.char) = [] := by
    cases gs with
    | nil => rfl
    | cons g gs => exact List.takeWhile_cons_of_neg (by simp [hend g rfl])
  have hlex : lexeme? afterOperand d.char (ds ++ gs) = some (.number, ds.length) := by
    rw [lexeme?, if_pos h.1, List.takeWhile_append_of_pos h.2, hgs, List.append_nil]
  rw [List.cons_append, piecesFrom_of_lexeme? hlex d.opensWord, lexemeText, List.take_left,
    List.drop_left, List.length_cons, Nat.add_assoc, Nat.add_comm 1]
  rfl

/-! ## Before the digit -/

variable {g h : Glyph} {gs : List Glyph}

/-- What a token that begins with `h` leaves of the glyphs `gs` behind it, up to a digit.

    `within`: it ends before the digit.  `named`: if it ends in a digit and leaves nothing but
    digits, it is a variable. -/
structure StopsBefore (h : Glyph) (gs : List Glyph) (kind : TokenKind) (extra : Nat) : Prop where
  within : extra ≤ gs.length
  named : (∀ l ∈ gs.drop extra, isDigit l.char = true) →
    ∀ l ∈ (h :: gs.take extra).getLast?, isDigit l.char = true → kind = .named

/-- A number does not stop between two digits. -/
theorem number_stopsBefore (hhead : isDigit h.char = true) (rest : List Glyph)
    (hrun : ¬ ∀ l ∈ h :: gs, isDigit l.char = true) :
    StopsBefore h gs .number ((gs ++ g :: rest).takeWhile (isDigit ·.char)).length := by
  have hgs : ¬ ∀ l ∈ gs, isDigit l.char = true := fun hall =>
    hrun (List.forall_mem_cons.mpr ⟨hhead, hall⟩)
  have hle : ((gs ++ g :: rest).takeWhile (isDigit ·.char)).length ≤ gs.length :=
    Nat.le_of_not_lt fun hlt => hgs (of_length_lt_takeWhile hlt).1
  refine ⟨hle, fun hdrop => absurd (fun l hl => ?_) hgs⟩
  have hsame : (gs ++ g :: rest).take ((gs ++ g :: rest).takeWhile (isDigit ·.char)).length =
      gs.take ((gs ++ g :: rest).takeWhile (isDigit ·.char)).length :=
    List.take_append_of_le_length hle
  rw [← List.take_append_drop ((gs ++ g :: rest).takeWhile (isDigit ·.char)).length gs,
    List.mem_append, ← hsame] at hl
  exact hl.elim of_mem_take_length_takeWhile (hdrop l)

/-- A variable ends where its name does, so before a digit that does not carry it on. -/
theorem named_stopsBefore (hat : h.char = '@') (rest : List Glyph) (hstop : g.opensWord = true ∨
      ∀ l ∈ (h :: gs).getLast?, isNameChar l.char = false ∧ l.char ≠ '@') :
    StopsBefore h gs .named ((gs ++ g :: rest).takeWhile Glyph.carriesName).length := by
  refine ⟨Nat.le_of_not_lt fun hlt => ?_, fun _ _ _ _ => rfl⟩
  obtain ⟨hall, hcarries⟩ := of_length_lt_takeWhile hlt
  rcases hstop with hopens | hlast
  · simp [Glyph.carriesName, hopens] at hcarries
  · rcases List.eq_nil_or_concat gs with rfl | ⟨front, l, rfl⟩
    · exact (hlast h rfl).2 hat
    · have hend : l ∈ (h :: front.concat l).getLast? := by
        rw [List.concat_eq_append, ← List.cons_append, List.getLast?_concat]
        rfl
      have hname := (hlast l hend).1
      have hcarried := hall l (by simp)
      simp [Glyph.carriesName, hname] at hcarried

/-- Any other token looks at most at one letter of its own, which is no digit. -/
theorem short_stopsBefore (hdigit : isDigit g.char = true) (hhead : isDigit h.char = false)
    (hat : h.char ≠ '@') {rest : List Glyph} {afterOperand : Bool} {kind : TokenKind} {extra : Nat}
    (hlex : lexeme? afterOperand h.char (gs ++ g :: rest) = some (kind, extra)) :
    StopsBefore h gs kind extra := by
  have hletters : ∀ e ∈ "hlfo=".toList, isDigit e = false := by simp [isDigit]
  have hshort : extra ≤ gs.length ∧
      ∀ l ∈ (h :: gs.take extra).getLast?, isDigit l.char = false := by
    refine short_of_lexeme? (P := fun extra => extra ≤ gs.length ∧
      ∀ l ∈ (h :: gs.take extra).getLast?, isDigit l.char = false)
      hhead hat hlex ⟨Nat.zero_le _, ?_⟩ fun e he hnext => ?_
    · rintro l ⟨⟩
      exact hhead
    · cases gs with
      | nil =>
        cases hnext
        rw [hletters _ he] at hdigit
        cases hdigit
      | cons l gs =>
        cases hnext
        refine ⟨Nat.le_add_left 1 gs.length, ?_⟩
        rintro l' ⟨⟩
        exact hletters _ he
  refine ⟨hshort.1, fun _ l hl hl' => ?_⟩
  rw [hshort.2 l hl] at hl'
  cases hl'

/-- A token that is cut before a digit stops there, if not all before the digit are digits and it
    carries no name on. -/
theorem stopsBefore_of_lexeme? (hdigit : isDigit g.char = true) {rest : List Glyph}
    (hstop : g.opensWord = true ∨
      ∀ l ∈ (h :: gs).getLast?, isNameChar l.char = false ∧ l.char ≠ '@')
    (hrun : ¬ ∀ l ∈ h :: gs, isDigit l.char = true) {afterOperand : Bool} {kind : TokenKind}
    {extra : Nat} (hlex : lexeme? afterOperand h.char (gs ++ g :: rest) = some (kind, extra)) :
    StopsBefore h gs kind extra := by
  by_cases hhead : isDigit h.char = true
  · rw [lexeme?, if_pos hhead] at hlex
    cases hlex
    exact number_stopsBefore hhead rest hrun
  by_cases hat : h.char = '@'
  · rw [hat, lexeme?_mark] at hlex
    cases hlex
    exact named_stopsBefore hat rest hstop
  · exact short_stopsBefore hdigit (Bool.eq_false_iff.mpr hhead) hat hlex

/-- Pieces that were cut of the glyphs before a run of digits.  A digit in front of the run is one
    that a variable took. -/
structure LeadTo (ps : List Piece) (before digits : List Glyph) : Prop where
  digits : ∀ d ∈ digits, isDigit d.char = true
  nil : before = [] → ps = []
  last : ∀ l ∈ before.getLast?, isDigit l.char = true →
    ∃ t, ps.getLast? = some (.token t) ∧ t.kind = .named

/-- One piece more in front. -/
theorem LeadTo.cons {ps : List Piece} {before digits front : List Glyph}
    (h : LeadTo ps before digits) (hne : front ≠ []) {p : Piece}
    (hp : before = [] → ∀ l ∈ front.getLast?, isDigit l.char = true →
      ∃ t, p = .token t ∧ t.kind = .named) :
    LeadTo (p :: ps) (front ++ before) digits := by
  refine ⟨h.digits, fun hnil => absurd (List.append_eq_nil_iff.mp hnil).1 hne, fun l hl hl' => ?_⟩
  rcases List.eq_nil_or_concat before with rfl | ⟨more, b, rfl⟩
  · rw [List.append_nil] at hl
    obtain ⟨t, rfl, hnamed⟩ := hp rfl l hl hl'
    rw [h.nil rfl]
    exact ⟨t, rfl, hnamed⟩
  · rw [List.concat_eq_append, ← List.append_assoc, List.getLast?_concat] at hl
    cases hl
    obtain ⟨t, hlast, hnamed⟩ := h.last l (by simp) hl'
    refine ⟨t, ?_, hnamed⟩
    rw [List.getLast?_cons, hlast]
    rfl

/-- What is cut of the glyphs `gs` before a digit leads to the run of digits that it stands in, or
    to the rest of that run that a variable leaves. -/
def LeadsUp (g : Glyph) (rest : List Glyph) (afterOperand : Bool) (place : Nat)
    (gs : List Glyph) : Prop :=
  ∃ before digits ps afterOperand', gs = before ++ digits ∧ LeadTo ps before digits ∧
    piecesFrom afterOperand place (gs ++ g :: rest) =
      ps ++ piecesFrom afterOperand' (place + before.length) (digits ++ g :: rest)

/-- Where one piece is cut off in front, it leads up to the digit with what is cut behind it. -/
theorem LeadsUp.behind {front back rest : List Glyph} {afterOperand after : Bool} {place : Nat}
    (h : LeadsUp g rest after (place + front.length) back) (p : Piece) (hne : front ≠ [])
    (hp : (∀ d ∈ back, isDigit d.char = true) → ∀ l ∈ front.getLast?, isDigit l.char = true →
      ∃ t, p = .token t ∧ t.kind = .named)
    (hcut : piecesFrom afterOperand place (front ++ back ++ g :: rest) =
      p :: piecesFrom after (place + front.length) (back ++ g :: rest)) :
    LeadsUp g rest afterOperand place (front ++ back) := by
  obtain ⟨before, digits, ps, after', rfl, hlead, hpieces⟩ := h
  refine ⟨front ++ before, digits, p :: ps, after', (List.append_assoc _ _ _).symm,
    hlead.cons hne fun hnil => hp ?_, ?_⟩
  · rw [hnil, List.nil_append]
    exact hlead.digits
  · rw [hcut, hpieces, List.length_append, Nat.add_assoc]
    rfl

/-- A digit that carries no name on is led up to by what is cut before it: induction on the glyphs
    there. -/
theorem piecesFrom_digit (hdigit : isDigit g.char = true) {gs : List Glyph}
    (hstop : g.opensWord = true ∨ ∀ l ∈ gs.getLast?, isNameChar l.char = false ∧ l.char ≠ '@')
    (rest : List Glyph) (afterOperand : Bool) (place : Nat) :
    LeadsUp g rest afterOperand place gs := by
  induction hlength : gs.length using Nat.strongRecOn generalizing gs afterOperand place with
  | _ n ih =>
    by_cases hrun : ∀ l ∈ gs, isDigit l.char = true
    · exact ⟨[], gs, [], afterOperand, rfl, ⟨hrun, fun _ => rfl, by simp⟩, rfl⟩
    cases gs with
    | nil => exact absurd (fun l hl => absurd hl List.not_mem_nil) hrun
    | cons h gs =>
      rw [List.length_cons] at hlength
      -- What stops a name before all of the glyphs stops it before the last ones of them.
      have hlater : ∀ front back, h :: gs = front ++ back → g.opensWord = true ∨
          ∀ l ∈ back.getLast?, isNameChar l.char = false ∧ l.char ≠ '@' := by
        intro front back hsplit
        rw [hsplit] at hstop
        exact hstop.imp_right fun hlast l hl =>
          hlast l (List.mem_getLast?_append_of_mem_getLast? hl)
      cases hlex : lexeme? afterOperand h.char (gs ++ g :: rest) with
      | none =>
        have hbehind : LeadsUp g rest afterOperand (place + [h].length) gs :=
          ih gs.length (by omega) (hlater [h] gs rfl) afterOperand (place + 1) rfl
        refine hbehind.behind (.stray h.char place) (List.cons_ne_nil _ _) ?_ ?_
        · rintro - l ⟨⟩ hl
          have hhead : isDigit h.char = true := hl
          rw [lexeme?, if_pos hhead] at hlex
          cases hlex
        · rw [List.singleton_append, List.cons_append, piecesFrom, hlex]
          rfl
      | some found =>
        obtain ⟨kind, extra⟩ := found
        obtain ⟨hle, hends⟩ := stopsBefore_of_lexeme? hdigit hstop hrun hlex
        have hsplit : h :: gs = (h :: gs.take extra) ++ gs.drop extra := by
          rw [List.cons_append, List.take_append_drop]
        have hshorter : (gs.drop extra).length < n := by
          rw [List.length_drop]
          omega
        have hplace : place + 1 + extra = place + (h :: gs.take extra).length := by
          rw [List.length_cons, List.length_take]
          omega
        have hcut := piecesFrom_of_lexeme? hlex h.opensWord place
        generalize htoken :
          (⟨kind, lexemeText h.char (gs ++ g :: rest) extra, place⟩ : Token) = t at hcut
        have hbehind := ih _ hshorter (hlater _ _ hsplit) t.endsOperand (place + 1 + extra) rfl
        rw [hplace] at hbehind hcut
        rw [List.drop_append_of_le_length hle] at hcut
        rw [hsplit]
        refine hbehind.behind (.token t) (List.cons_ne_nil _ _) (fun hdrop l hl hl' => ?_) ?_
        · exact ⟨t, rfl, by rw [← htoken]; exact hends hdrop l hl hl'⟩
        · rw [← hsplit]
          exact hcut

end Tabletop
