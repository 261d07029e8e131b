/-
  What is read does not hang on where it stands: tokens that differ in their positions only derive
  the same expression within the same limits.
-/
import Tabletop.Proofs.Grammar
import Tabletop.Proofs.Notation.Divided

namespace Tabletop.Grammar

/-- Every token stays what it is, but for its position. -/
structure Keeps (f : Token → Token) : Prop where
  kind (t : Token) : (f t).kind = t.kind
  text (t : Token) : (f t).text = t.text

variable {f : Token → Token}

/-! ## Single tokens -/

/-- An operand is the same wherever its token stands. -/
theorem IsOperand.map (hf : Keeps f) {t : Token} {x : Operand} (h : IsOperand t x) :
    IsOperand (f t) x := by
  cases h with
  | number kind =>
    have hk : (f t).kind = .number := by rw [hf.kind, kind]
    rw [← hf.text t]
    exact .number hk
  | named kind =>
    have hk : (f t).kind = .named := by rw [hf.kind, kind]
    rw [← hf.text t]
    exact .named hk

/-- A comparison is the same wherever its token stands. -/
theorem IsComparison.map (hf : Keeps f) {t : Token} {c : Comparison} (h : IsComparison t c) :
    IsComparison (f t) c :=
  ⟨by rw [hf.kind, h.1], by rw [hf.text, h.2]⟩

/-- An operator is the same wherever its token stands. -/
theorem IsOperator.map (hf : Keeps f) {t : Token} {op : Operator} (h : IsOperator t op) :
    IsOperator (f t) op :=
  ⟨by rw [hf.kind, h.1], by rw [hf.text, h.2]⟩

theorem IsWord.map (hf : Keeps f) {t : Token} {word : String} (h : IsWord t word) :
    IsWord (f t) word :=
  ⟨by rw [hf.kind, h.1], by rw [hf.text, h.2]⟩

/-! ## Dice terms -/

/-- A modifier is the same wherever its tokens stand. -/
theorem IsModifier.map (hf : Keeps f) {ts : List Token} {m : Modifier} (h : IsModifier ts m) :
    IsModifier (ts.map f) m := by
  cases h with
  | selection listed head count => exact .selection listed (head.map hf) (count.map hf)
  | explosion head comparison threshold =>
    exact .explosion (head.map hf) (comparison.map hf) (threshold.map hf)
  | bareReroll listed head threshold =>
    exact .bareReroll listed (head.map hf) (threshold.map hf)
  | reroll listed head comparison threshold =>
    exact .reroll listed (head.map hf) (comparison.map hf) (threshold.map hf)
  | successCheck comparison threshold =>
    exact .successCheck (comparison.map hf) (threshold.map hf)

/-- Modifiers in a row are the same wherever they stand. -/
theorem Modifiers.map (hf : Keeps f) {ts : List Token} {ms : List Modifier} (h : Modifiers ts ms) :
    Modifiers (ts.map f) ms := by
  induction h with
  | nil => exact .nil
  | cons head _ ih =>
    rw [List.map_append]
    exact .cons (head.map hf) ih
  | @bareExplosion t rest ms head bare _ ih =>
    refine .bareExplosion (head.map hf) ?_ ih
    intro c hc
    rw [List.head?_map] at hc
    obtain ⟨u, hu, rfl⟩ := Option.map_eq_some_iff.mp hc
    rw [hf.kind]
    exact bare u hu

/-- Pools are the same wherever they stand. -/
theorem Pools.map (hf : Keeps f) {ts : List Token} {items : List (Pool × Operand)}
    (h : Pools ts items) : Pools (ts.map f) items := by
  induction h with
  | nil => exact .nil
  | cons kind count _ ih => exact .cons (by rw [hf.kind, kind]) (count.map hf) ih

theorem Count.map (hf : Keeps f) {ts : List Token} {x : Operand} (h : Count ts x) :
    Count (ts.map f) x := by
  cases h with
  | implicit => exact .implicit
  | written operand => exact .written (operand.map hf)

/-- A dice term is the same wherever it stands. -/
theorem Dice.map (hf : Keeps f) {ts : List Token} {e : Expr} (h : Dice ts e) :
    Dice (ts.map f) e := by
  cases h with
  | hopeFear kind pools tail =>
    rw [List.map_cons, List.map_append]
    exact .hopeFear (by rw [hf.kind, kind]) (pools.map hf) (tail.map hf)
  | sized head kind size tail =>
    rw [List.map_append, List.map_cons, List.map_cons]
    exact .sized (head.map hf) (by rw [hf.kind, kind]) (size.map hf) (tail.map hf)
  | fate head kind tail =>
    rw [List.map_append, List.map_cons]
    exact .fate (head.map hf) (by rw [hf.kind, kind]) (tail.map hf)

/-! ## Expressions -/

/-- Induction on the derivation. -/
theorem Derives.map (hf : Keeps f) {phrase : Phrase} {ts : List Token} {e : Expr}
    (h : Derives phrase ts e) : Derives phrase (ts.map f) e := by
  induction h with
  | number operand => exact .number (operand.map hf)
  | named operand => exact .named (operand.map hf)
  | parens opens closes _ ih =>
    rw [List.map_cons, List.map_append]
    exact .parens (by rw [hf.kind, opens]) (by rw [hf.kind, closes]) ih
  | dice term => exact .dice (term.map hf)
  | ofFactor _ ih => exact .ofFactor ih
  | product _ listed head _ ihl ihr =>
    rw [List.map_append, List.map_cons]
    exact .product ihl listed (head.map hf) ihr
  | ofProduct _ ih => exact .ofProduct ih
  | sum _ listed head _ ihl ihr =>
    rw [List.map_append, List.map_cons]
    exact .sum ihl listed (head.map hf) ihr

/-- How deep parentheses nest does not hang on where they stand. -/
theorem nestsWithin_map (hf : Keeps f) {room : Nat} {ts : List Token} :
    NestsWithin room (ts.map f) ↔ NestsWithin room ts := by
  induction ts generalizing room with
  | nil => exact Iff.rfl
  | cons t ts ih =>
    rw [List.map_cons, NestsWithin, NestsWithin, hf.kind]
    cases t.kind with
    | openParen => exact and_congr_right fun _ => ih
    | closeParen => exact ih
    | _ => exact ih

end Tabletop.Grammar

namespace Tabletop

open Grammar

theorem keeps_shift (far : Nat) : Keeps (Token.shift far) := ⟨fun _ => rfl, fun _ => rfl⟩

end Tabletop
