/-
  **Round trip**: the text of a renderable expression is read as that expression.

  1. Every part of the text is cut into the tokens that it was made of, whatever stands around it
     (`Cuts`), part by part as it was put together.
  2. These tokens derive the expression, and the grammar is all that a reader follows.

  An operator gives its sides no more than the place of a factor, so the induction is on factors: an
  expression as it stands beside an operator, in parentheses where it is an operator itself.
-/
import Mathlib
import Tabletop.Evaluation
import Tabletop.Proofs.Reading.Exact
import Tabletop.Proofs.Rendering.Words

namespace Tabletop

open Grammar Text

variable {after : Bool}

/-! ## What texts begin with -/

/-- The first character of a text is no blank, and `P` holds of its lower case. -/
def Begins (P : Char → Prop) (text : String) : Prop :=
  ∃ c more, lowerAscii text = c :: more ∧ isBlank c = false ∧ P c

/-- What a text begins with is the first character that is no blank, whatever comes behind it. -/
theorem Begins.ink {P : Char → Prop} {text : String} (h : Begins P text) (rest : List Char) :
    ∃ c ∈ ink (lowerAscii text ++ rest), P c := by
  obtain ⟨c, more, htext, hc, hP⟩ := h
  rw [htext, List.cons_append, ink_cons hc]
  exact ⟨c, rfl, hP⟩

/-- A text begins the same way with more behind it. -/
theorem Begins.append {P : Char → Prop} {text : String} (h : Begins P text) (more : String) :
    Begins P (text ++ more) := by
  obtain ⟨c, cs, htext, hc⟩ := h
  rw [lowerAscii] at htext
  exact ⟨c, cs ++ lowerAscii more, by simp [lowerAscii, htext], hc⟩

/-- Less may be said of what a text begins with. -/
theorem Begins.imp {P P' : Char → Prop} {text : String} (h : Begins P text)
    (himp : ∀ c, P c → P' c) : Begins P' text := by
  obtain ⟨c, cs, htext, hc, hP⟩ := h
  exact ⟨c, cs, htext, hc, himp c hP⟩

/-- An operand begins with a digit or the mark of a variable. -/
theorem begins_operand {x : Operand} (h : x.Renderable) :
    Begins (fun c => isDigit c = true ∨ c = '@') x.render := by
  cases x with
  | number n =>
    obtain ⟨n, rfl⟩ := Int.eq_ofNat_of_zero_le h.1
    have hne : Nat.toDigits 10 n ≠ [] := Nat.toDigits_ne_nil
    obtain ⟨c, cs, hdigits⟩ := List.exists_cons_of_ne_nil hne
    have hc : isDigit c = true := Numeral.isDigit_of_mem_toDigits (hdigits ▸ List.mem_cons_self)
    have hrange := Numeral.toNat_of_isDigit hc
    have hlower : c.toLower = c := toLower_of_unmapped (by omega) (by omega)
    refine ⟨c, cs.map Char.toLower, ?_, isBlank_of_isNameChar (by simp [isNameChar, hc]), Or.inl hc⟩
    rw [lowerAscii, toList_render_number, hdigits, List.map_cons, hlower]
  | named name => exact ⟨'@', _, by simp [lowerAscii, Operand.render]; rfl, by decide, Or.inr rfl⟩

/-- A comparison begins with one of its characters. -/
theorem begins_comparison (comparison : Comparison) :
    Begins (isComparisonChar · = true) comparison.symbol := by
  cases comparison <;> exact ⟨_, _, rfl, by decide, by decide⟩

/-- A condition begins with its comparison. -/
theorem begins_condition (comparison : Comparison) (x : Operand) :
    Begins (isComparisonChar · = true) (comparison.render x) :=
  (begins_comparison comparison).append _

/-- The tokens are that condition. -/
def OneCondition (comparison : Comparison) (x : Operand) (ts : List Token) : Prop :=
  ∃ c o, ts = [c, o] ∧ IsComparison c comparison ∧ IsOperand o x

/-- A condition is cut into its comparison and its operand. -/
theorem cuts_condition (comparison : Comparison) {x : Operand} (h : x.Renderable) :
    Cuts after (comparison.render x) true NoDigit (OneCondition comparison x) := by
  refine (cuts_comparison comparison).append (cuts_operand h)
    (fun rest _ => (begins_operand h).ink rest) ?_
  rintro _ _ ⟨position, rfl⟩ ⟨t, rfl, ht⟩
  exact ⟨_, t, rfl, ⟨rfl, rfl⟩, ht⟩

/-- A modifier that a comparison behind it could not join, or the bare mark of an explosion. -/
inductive Spells : List Token → Modifier → Prop where
  | closed {ts : List Token} {m : Modifier} (whole : IsModifier ts m) : Spells ts m
  | bare {t : Token} (head : IsWord t "!") : Spells [t] .bareExplosion

/-- A modifier before others, which do not begin with a comparison where it would be joined by
    one. -/
theorem Spells.modifiers {ts us : List Token} {m : Modifier} {ms : List Modifier}
    (h : Spells ts m) (hms : Modifiers us ms)
    (hapart : m = .bareExplosion → ∀ check rest, ms ≠ .successCheck check :: rest) :
    Modifiers (ts ++ us) (m :: ms) := by
  cases h with
  | closed whole => exact .cons whole hms
  | bare head => exact .bareExplosion head (hms.head_kind (hapart rfl)) hms

/-- The tokens are that target clause. -/
def OneClause (comparison : Comparison) (x : Operand) (ts : List Token) : Prop :=
  ∃ t c o, ts = [t, c, o] ∧ t.kind = .target ∧ IsComparison c comparison ∧ IsOperand o x

/-- A target clause is cut into its letter, its comparison and its operand. -/
theorem cuts_clause (after : Bool) (comparison : Comparison) {x : Operand} (h : x.Renderable) :
    Cuts after ("t" ++ comparison.render x) true NoDigit (OneClause comparison x) := by
  refine cuts_target.append (cuts_condition comparison h)
    (fun rest _ => (begins_condition comparison x).ink rest) ?_
  rintro _ _ ⟨position, rfl⟩ ⟨c, o, rfl, hc, ho⟩
  exact ⟨_, c, o, rfl, rfl, hc, ho⟩

/-- A clause behind tokens that derive an expression makes a target check of it. -/
theorem OneClause.sentence {comparison : Comparison} {x : Operand} {us ts : List Token}
    {inner : Expr} {room : Nat} (h : OneClause comparison x ts) (hinner : Derives .sum us inner)
    (hnest : NestsWithin room us) :
    Sentence (us ++ ts) (.target inner comparison x) ∧ NestsWithin room (us ++ ts) := by
  obtain ⟨t, c, o, rfl, ht, hc, ho⟩ := h
  have hplain : ∀ u ∈ [t, c, o], Plain u := by
    simp only [List.forall_mem_cons]
    exact ⟨by simp [Plain, ht], hc.plain, ho.plain, by simp⟩
  refine ⟨.target hinner ht hc ho, ?_⟩
  rw [hinner.balanced]
  exact ⟨hnest, nestsWithin_of_plain hplain _⟩

end Tabletop
