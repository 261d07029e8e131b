/-
  **Reading is exact**: the tokens of a text are read as an expression just when they derive it.

  Soundness and completeness of the readers, put together at the beginning of a text.  The limits of
  the notation stand beside the grammar: how long a number may be, that a variable has a name, and
  how deep parentheses may nest.  Whatever else there is to read is refused because of one of the
  tokens, and reading fails in no other way.
-/
import Mathlib
import Tabletop.Proofs.Reading.Complete

namespace Tabletop

open Grammar

/-- The cursor at the beginning of the tokens of a text. -/
theorem Cursor.ofTokens_tokens (text : List Char) :
    Cursor.ofTokens (tokens text) = { unread := cutTokens text, last := finishOf text } := by
  rw [tokens_eq, Cursor.ofTokens, List.getLast?_concat, List.dropLast_concat]
  rfl

theorem Cursor.wellFormed_ofTokens (text : List Char) :
    (Cursor.ofTokens (tokens text)).WellFormed := by
  rw [Cursor.ofTokens_tokens]
  exact ⟨fun t ht => wellFormed_of_mem_cutTokens ht, rfl⟩

/-- The tokens derive the expression within the limits of the notation. -/
structure DerivesWithin (limit : Int) (ts : List Token) (e : Expr) : Prop where
  sentence : Sentence ts e
  numbers : ∀ t ∈ ts, t.kind = .number → t.text.length ≤ numberLengthLimit
  names : ∀ t ∈ ts, t.kind = .named → t.text ≠ "@"
  nesting : NestsWithin limit.toNat ts

theorem DerivesWithin.withinLimits {limit : Int} {ts : List Token} {e : Expr}
    (h : DerivesWithin limit ts e) : ∀ t ∈ ts, t.WithinLimits :=
  fun t ht => ⟨h.numbers t ht, h.names t ht⟩

/-- What is read derives what it is read as, and what is not is refused because of a token. -/
theorem ofTokens_sound (limit : Int) (text : List Char) :
    (∀ e, (Expr.ofTokens limit (tokens text)).1 = .ok e → DerivesWithin limit (cutTokens text) e) ∧
      ∀ fault, (Expr.ofTokens limit (tokens text)).1 = .error fault →
        ∃ cause, ∃ t ∈ tokens text, fault = .expr (.misfit ⟨cause, t⟩) := by
  have hreads := Reader.whole_reads limit (Cursor.wellFormed_ofTokens text)
  have hroom : (limit - (Cursor.ofTokens (tokens text)).nesting).toNat = limit.toNat := by
    rw [Cursor.ofTokens_tokens]
    exact congrArg Int.toNat (Int.sub_zero limit)
  rw [hroom] at hreads
  unfold Expr.ofTokens
  rw [Cursor.ofTokens_tokens] at hreads ⊢
  generalize Reader.whole limit _ = r at hreads ⊢
  cases hreads with
  | ok unread last within related =>
    refine ⟨?_, nofun⟩
    rintro _ ⟨⟩
    obtain ⟨rfl, hsentence, hnest⟩ := related
    exact ⟨hsentence, fun t ht => (within t ht).number, fun t ht => (within t ht).named, hnest⟩
  | @error cause token c' mem =>
    refine ⟨nofun, ?_⟩
    rintro _ ⟨⟩
    exact ⟨cause, token, mem, rfl⟩

/-- What derives an expression is read as that expression. -/
theorem ofTokens_complete {limit : Int} {text : List Char} {e : Expr}
    (h : DerivesWithin limit (cutTokens text) e) :
    (Expr.ofTokens limit (tokens text)).1 = .ok e := by
  have hc := Cursor.wellFormed_ofTokens text
  unfold Expr.ofTokens
  rw [Cursor.ofTokens_tokens] at hc ⊢
  have hnest : NestsWithin (limit - (0 : Nat)).toNat (cutTokens text) := by
    rw [show limit - (0 : Nat) = limit from Int.sub_zero limit]
    exact h.nesting
  obtain ⟨c', hrun⟩ := Reader.whole_of_sentence limit hc h.sentence hnest h.withinLimits
  rw [hrun]

/-- **Exactness.**  However a text was cut into tokens, these are read as `e` just when those before
    the last one derive `e` within the limits; and what is not read is refused because of one of the
    tokens. -/
theorem ofTokens_exact {strict : Bool} {text : String} {ts : List Token}
    (h : readTokens strict text = .ok ts) (limit : Int) :
    (∀ e, (Expr.ofTokens limit ts).1 = .ok e ↔ DerivesWithin limit ts.dropLast e) ∧
      ∀ fault, (Expr.ofTokens limit ts).1 = .error fault →
        ∃ cause, ∃ t ∈ ts, fault = .expr (.misfit ⟨cause, t⟩) := by
  obtain rfl := eq_tokens_of_readTokens h
  obtain ⟨hsound, hrefused⟩ := ofTokens_sound limit text.toList
  have hcut : (tokens text.toList).dropLast = cutTokens text.toList := by
    rw [tokens_eq, List.dropLast_concat]
  rw [hcut]
  exact ⟨fun e => ⟨hsound e, ofTokens_complete⟩, hrefused⟩

/-- A comparison behind the mark of an explosion is its threshold, the next one counts successes. -/
theorem ofTokens_exact_explosion :
    readTokens true "(3d6!>4>5+@n)*2" = .ok (tokens "(3d6!>4>5+@n)*2".toList) ∧
      DerivesWithin 1 (tokens "(3d6!>4>5+@n)*2".toList).dropLast
        (.binary .mul
          (.binary .add
            (.dice (.number 3) (.faces (.number 6))
              [.explosion ⟨.gt, some (.number 4), none⟩, .successCheck ⟨.gt, .number 5⟩])
            (.named "N"))
          (.number 2)) := by
  have hread : readTokens true "(3d6!>4>5+@n)*2" = .ok (tokens "(3d6!>4>5+@n)*2".toList) := by
    cbv
  exact ⟨hread, ((ofTokens_exact hread 1).1 _).mp (by cbv)⟩

end Tabletop
