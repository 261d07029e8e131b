/-
  The grammar of the dice notation, as a relation between tokens and what they stand for.

      target     := expression ( t comparison operand )?
      expression := term ( (+|-) term )*
      term       := factor ( (*|/) factor )*
      factor     := dice | atom
      dice       := dh ( a operand | d operand )* modifiers
                  | operand? d operand modifiers
                  | operand? df modifiers
      atom       := number | variable | ( expression )

  The relation says nothing of how a text is read: there is no cursor, no order of attempts and no
  way back.  Three rules settle what the lines above leave open.

  * Chains group to the left, so a chain is a shorter chain, an operator and one more operand.
  * The mark of an explosion takes a comparison that directly follows it, so a bare mark stands only
    where none does; every other comparison among the modifiers counts successes.
  * Of several counts for one pool the last one stands.

  How long a number may be and how deep parentheses may nest are no matters of the grammar.
-/
import Tabletop.Expr
import Tabletop.Text.Case
import Tabletop.Token

namespace Tabletop.Grammar

/-! ## Single tokens -/

/-- The token is that operand: a number by the value of its digits, a variable by its name in upper
    case, without the mark. -/
inductive IsOperand : Token → Operand → Prop where
  | number {t : Token} (kind : t.kind = .number) :
      IsOperand t (.number (Nat.ofDigitChars 10 t.text.toList 0))
  | named {t : Token} (kind : t.kind = .named) :
      IsOperand t (.named (String.ofList (Text.upper (t.text.toList.drop 1))))

/-- The token is that comparison. -/
def IsComparison (t : Token) (c : Comparison) : Prop := t.kind = .comparison ∧ t.text = c.symbol

/-- The token is that arithmetic operator. -/
def IsOperator (t : Token) (op : Operator) : Prop := t.kind = .operator ∧ t.text = op.symbol

/-- The operators that have a meaning. -/
def arithmetic : List Operator := [.add, .sub, .mul, .div]

/-- The token is that word of a modifier. -/
def IsWord (t : Token) (word : String) : Prop := t.kind = .modifier ∧ t.text = word

/-! ## Modifiers -/

/-- The words of selections; `k` alone keeps high dice. -/
def selectionWords : List (String × SelectionAction × Extreme) := [
  ("kh", .keep, .high), ("k", .keep, .high), ("kl", .keep, .low), ("dh", .drop, .high),
  ("dl", .drop, .low)]

/-- The words of rerolls. -/
def rerollWords : List (String × RerollMode) := [("r", .once), ("ro", .continuous)]

/-- The tokens are that modifier, which no further token can join. -/
inductive IsModifier : List Token → Modifier → Prop where
  | selection {t o : Token} {word action extreme x}
      (listed : (word, action, extreme) ∈ selectionWords) (head : IsWord t word)
      (count : IsOperand o x) : IsModifier [t, o] (.selection ⟨action, extreme, x⟩)
  | explosion {t c o : Token} {op x} (head : IsWord t "!") (comparison : IsComparison c op)
      (threshold : IsOperand o x) : IsModifier [t, c, o] (.explosion ⟨op, some x, none⟩)
  | bareReroll {t o : Token} {word mode x} (listed : (word, mode) ∈ rerollWords)
      (head : IsWord t word) (threshold : IsOperand o x) :
      IsModifier [t, o] (.reroll ⟨mode, .le, x⟩)
  | reroll {t c o : Token} {word mode op x} (listed : (word, mode) ∈ rerollWords)
      (head : IsWord t word) (comparison : IsComparison c op) (threshold : IsOperand o x) :
      IsModifier [t, c, o] (.reroll ⟨mode, op, x⟩)
  | successCheck {c o : Token} {op x} (comparison : IsComparison c op)
      (threshold : IsOperand o x) : IsModifier [c, o] (.successCheck ⟨op, x⟩)

/-- The tokens are those modifiers, one behind the other. -/
inductive Modifiers : List Token → List Modifier → Prop where
  | nil : Modifiers [] []
  | cons {ts rest : List Token} {m ms} (head : IsModifier ts m) (tail : Modifiers rest ms) :
      Modifiers (ts ++ rest) (m :: ms)
  | bareExplosion {t : Token} {rest : List Token} {ms} (head : IsWord t "!")
      (bare : ∀ c ∈ rest.head?, c.kind ≠ .comparison) (tail : Modifiers rest ms) :
      Modifiers (t :: rest) (.explosion ⟨.ge, none, none⟩ :: ms)

/-! ## Pools -/

/-- The two pools of a Hope/Fear roll. -/
inductive Pool where
  | advantage
  | disadvantage
  deriving DecidableEq

/-- The kind of the token that names a pool. -/
def Pool.kind : Pool → TokenKind
  | advantage => .advantage
  | disadvantage => .dice

/-- The tokens name those pools with those counts. -/
inductive Pools : List Token → List (Pool × Operand) → Prop where
  | nil : Pools [] []
  | cons {t o : Token} {rest : List Token} {pool x items} (kind : t.kind = pool.kind)
      (count : IsOperand o x) (tail : Pools rest items) :
      Pools (t :: o :: rest) ((pool, x) :: items)

/-- The count of a pool: the last one given, and 0 where none is. -/
def countOf (pool : Pool) (items : List (Pool × Operand)) : Operand :=
  (items.reverse.lookup pool).getD (.number 0)

/-- What is found under a key is there. -/
theorem mem_of_lookup {α β : Type} [BEq α] [LawfulBEq α] {entries : List (α × β)} {key : α}
    {value : β} (h : entries.lookup key = some value) : (key, value) ∈ entries := by
  obtain ⟨l₁, l₂, rfl, -⟩ := List.lookup_eq_some_iff.mp h
  exact List.mem_append_right l₁ List.mem_cons_self

/-! ## Expressions -/

/-- The tokens are the count of a dice term, which is 1 where none is written. -/
inductive Count : List Token → Operand → Prop where
  | implicit : Count [] (.number 1)
  | written {t : Token} {x} (operand : IsOperand t x) : Count [t] x

/-- The tokens are that dice term. -/
inductive Dice : List Token → Expr → Prop where
  | hopeFear {t : Token} {ps ms : List Token} {items modifiers} (kind : t.kind = .hopeFear)
      (pools : Pools ps items) (tail : Modifiers ms modifiers) :
      Dice (t :: (ps ++ ms))
        (.hopeFear (countOf .advantage items) (countOf .disadvantage items) modifiers)
  | sized {d s : Token} {cs ms : List Token} {count sides modifiers} (head : Count cs count)
      (kind : d.kind = .dice) (size : IsOperand s sides) (tail : Modifiers ms modifiers) :
      Dice (cs ++ d :: s :: ms) (.dice count (.faces sides) modifiers)
  | fate {d : Token} {cs ms : List Token} {count modifiers} (head : Count cs count)
      (kind : d.kind = .fate) (tail : Modifiers ms modifiers) :
      Dice (cs ++ d :: ms) (.dice count .fate modifiers)

/-- The phrases that expressions are made of. -/
inductive Phrase where
  | sum
  | product
  | factor

/-- The tokens derive that expression as a phrase of that kind. -/
inductive Derives : Phrase → List Token → Expr → Prop where
  | number {t : Token} {n} (operand : IsOperand t (.number n)) : Derives .factor [t] (.number n)
  | named {t : Token} {name} (operand : IsOperand t (.named name)) :
      Derives .factor [t] (.named name)
  | parens {o c : Token} {ts : List Token} {e} (opens : o.kind = .openParen)
      (closes : c.kind = .closeParen) (inner : Derives .sum ts e) :
      Derives .factor (o :: (ts ++ [c])) e
  | dice {ts : List Token} {e} (term : Dice ts e) : Derives .factor ts e
  | ofFactor {ts : List Token} {e} (only : Derives .factor ts e) : Derives .product ts e
  | product {t : Token} {ls rs : List Token} {op l r} (left : Derives .product ls l)
      (listed : op ∈ [Operator.mul, .div]) (head : IsOperator t op)
      (right : Derives .factor rs r) : Derives .product (ls ++ t :: rs) (.binary op l r)
  | ofProduct {ts : List Token} {e} (only : Derives .product ts e) : Derives .sum ts e
  | sum {t : Token} {ls rs : List Token} {op l r} (left : Derives .sum ls l)
      (listed : op ∈ [Operator.add, .sub]) (head : IsOperator t op)
      (right : Derives .product rs r) : Derives .sum (ls ++ t :: rs) (.binary op l r)

/-- The tokens derive that expression as a whole, with the target check that may end it. -/
inductive Sentence : List Token → Expr → Prop where
  | plain {ts : List Token} {e} (only : Derives .sum ts e) : Sentence ts e
  | target {t c o : Token} {ts : List Token} {e op x} (inner : Derives .sum ts e)
      (kind : t.kind = .target) (comparison : IsComparison c op) (threshold : IsOperand o x) :
      Sentence (ts ++ [t, c, o]) (.target e op x)

/-- Two factors with an operator between them. -/
theorem Derives.binary {op : Operator} (h : op ∈ arithmetic) {t : Token} {ls rs : List Token}
    {l r : Expr} (ht : IsOperator t op) (hl : Derives .factor ls l) (hr : Derives .factor rs r) :
    Derives .sum (ls ++ t :: rs) (.binary op l r) := by
  simp only [arithmetic, List.mem_cons, List.not_mem_nil, or_false] at h
  rcases h with rfl | rfl | rfl | rfl
  · exact .sum (.ofProduct (.ofFactor hl)) (by decide) ht (.ofFactor hr)
  · exact .sum (.ofProduct (.ofFactor hl)) (by decide) ht (.ofFactor hr)
  · exact .ofProduct (.product (.ofFactor hl) (by decide) ht hr)
  · exact .ofProduct (.product (.ofFactor hl) (by decide) ht hr)

/-! ## Nesting -/

/-- No more than `room` parentheses are open at a time. -/
def NestsWithin (room : Nat) : List Token → Prop
  | [] => True
  | t :: ts =>
    match t.kind with
    | .openParen => room ≠ 0 ∧ NestsWithin (room - 1) ts
    | .closeParen => NestsWithin (room + 1) ts
    | _ => NestsWithin room ts

/-- Tokens after which as many parentheses are open as before, and never fewer in between: what
    follows them nests as it would without them. -/
def Balanced (ts : List Token) : Prop :=
  ∀ room rest, NestsWithin room (ts ++ rest) ↔ NestsWithin room ts ∧ NestsWithin room rest

/-- A token that is no parenthesis. -/
def Plain (t : Token) : Prop := t.kind ≠ .openParen ∧ t.kind ≠ .closeParen

/-- A token that is no parenthesis does not count for the nesting. -/
theorem nestsWithin_cons_of_plain {t : Token} (h : Plain t) (room : Nat) (ts : List Token) :
    NestsWithin room (t :: ts) ↔ NestsWithin room ts := by
  obtain ⟨h1, h2⟩ := h
  rw [NestsWithin]
  split
  · contradiction
  · contradiction
  · exact Iff.rfl

/-- Without parentheses any room is enough. -/
theorem nestsWithin_of_plain {ts : List Token} (h : ∀ t ∈ ts, Plain t) (room : Nat) :
    NestsWithin room ts := by
  induction ts with
  | nil => trivial
  | cons t ts ih =>
    rw [nestsWithin_cons_of_plain (h t List.mem_cons_self)]
    exact ih fun u hu => h u (List.mem_cons_of_mem t hu)

/-- With more room tokens nest as well. -/
theorem NestsWithin.mono {ts : List Token} {room room' : Nat} (h : NestsWithin room ts)
    (hroom : room ≤ room') : NestsWithin room' ts := by
  induction ts generalizing room room' with
  | nil => trivial
  | cons t ts ih =>
    rw [NestsWithin] at h ⊢
    split at h
    · exact ⟨by omega, ih h.2 (by omega)⟩
    · exact ih h (by omega)
    · exact ih h hroom

/-- Balanced tokens in a row are balanced. -/
theorem balanced_append {ls rs : List Token} (hl : Balanced ls) (hr : Balanced rs) :
    Balanced (ls ++ rs) := by
  intro room rest
  rw [List.append_assoc, hl, hr, hl, and_assoc]

/-- Tokens without parentheses are balanced. -/
theorem balanced_of_plain {ts : List Token} (h : ∀ t ∈ ts, Plain t) : Balanced ts := by
  intro room rest
  induction ts with
  | nil => simp [NestsWithin]
  | cons t ts ih =>
    have ht := h t List.mem_cons_self
    rw [List.cons_append, nestsWithin_cons_of_plain ht, nestsWithin_cons_of_plain ht]
    exact ih fun u hu => h u (List.mem_cons_of_mem t hu)

/-- A token between two balanced pieces leaves them balanced. -/
theorem balanced_between {ls rs : List Token} {t : Token} (hl : Balanced ls) (ht : Plain t)
    (hr : Balanced rs) : Balanced (ls ++ t :: rs) := by
  refine balanced_append hl ?_
  have hone : Balanced [t] := balanced_of_plain (by simpa using ht)
  exact balanced_append hone hr

/-- In parentheses there is room for one less. -/
theorem nestsWithin_parens {o c : Token} {ts : List Token} (ho : o.kind = .openParen)
    (hc : c.kind = .closeParen) (hts : Balanced ts) (room : Nat) :
    NestsWithin room (o :: (ts ++ [c])) ↔ room ≠ 0 ∧ NestsWithin (room - 1) ts := by
  simp [NestsWithin, ho, hc, hts (room - 1) [c]]

/-- Balanced tokens in parentheses are balanced. -/
theorem balanced_parens {o c : Token} {ts : List Token} (ho : o.kind = .openParen)
    (hc : c.kind = .closeParen) (hts : Balanced ts) : Balanced (o :: (ts ++ [c])) := by
  intro room rest
  rw [nestsWithin_parens ho hc hts, List.cons_append, List.append_assoc, NestsWithin, ho]
  show room ≠ 0 ∧ NestsWithin (room - 1) (ts ++ ([c] ++ rest)) ↔ _
  rw [hts, List.singleton_append, NestsWithin, hc]
  show room ≠ 0 ∧ _ ∧ NestsWithin (room - 1 + 1) rest ↔ _
  constructor
  · rintro ⟨h0, h1, h2⟩
    rw [Nat.sub_add_cancel (Nat.pos_of_ne_zero h0)] at h2
    exact ⟨⟨h0, h1⟩, h2⟩
  · rintro ⟨⟨h0, h1⟩, h2⟩
    rw [Nat.sub_add_cancel (Nat.pos_of_ne_zero h0)]
    exact ⟨h0, h1, h2⟩

/-! ### Which tokens are plain -/

/-- An operand is no parenthesis. -/
theorem IsOperand.plain {t : Token} {x : Operand} (h : IsOperand t x) : Plain t := by
  cases h with
  | number kind => simp [Plain, kind]
  | named kind => simp [Plain, kind]

theorem IsComparison.plain {t : Token} {c : Comparison} (h : IsComparison t c) : Plain t := by
  simp [Plain, h.1]

theorem IsOperator.plain {t : Token} {op : Operator} (h : IsOperator t op) : Plain t := by
  simp [Plain, h.1]

theorem IsWord.plain {t : Token} {word : String} (h : IsWord t word) : Plain t := by
  simp [Plain, h.1]

theorem Pool.plain_of_kind {t : Token} {pool : Pool} (h : t.kind = pool.kind) : Plain t := by
  cases pool <;> simp [Plain, h, Pool.kind]

/-- There are no parentheses in a modifier. -/
theorem IsModifier.plain {ts : List Token} {m : Modifier} (h : IsModifier ts m) :
    ∀ t ∈ ts, Plain t := by
  cases h with
  | selection _ head count => simp [head.plain, count.plain]
  | explosion head comparison threshold => simp [head.plain, comparison.plain, threshold.plain]
  | bareReroll _ head threshold => simp [head.plain, threshold.plain]
  | reroll _ head comparison threshold => simp [head.plain, comparison.plain, threshold.plain]
  | successCheck comparison threshold => simp [comparison.plain, threshold.plain]

/-- There are no parentheses in modifiers. -/
theorem Modifiers.plain {ts : List Token} {ms : List Modifier} (h : Modifiers ts ms) :
    ∀ t ∈ ts, Plain t := by
  induction h with
  | nil => simp
  | cons head _ ih => simpa [or_imp, forall_and] using ⟨head.plain, ih⟩
  | bareExplosion head _ _ ih => simpa using ⟨head.plain, ih⟩

/-- Only a success check begins with a comparison. -/
theorem Modifiers.head_kind {ts : List Token} {ms : List Modifier} (h : Modifiers ts ms)
    (hms : ∀ check rest, ms ≠ .successCheck check :: rest) :
    ∀ t ∈ ts.head?, t.kind ≠ .comparison := by
  intro t ht
  cases h with
  | nil => cases ht
  | bareExplosion head _ _ =>
    cases ht
    simp [head.1]
  | cons head _ =>
    cases head with
    | successCheck _ _ => exact absurd rfl (hms _ _)
    | selection _ head _ | explosion head _ _ | bareReroll _ head _ | reroll _ head _ _ =>
      cases ht
      simp [head.1]

/-- There are no parentheses in pools. -/
theorem Pools.plain {ts : List Token} {items : List (Pool × Operand)} (h : Pools ts items) :
    ∀ t ∈ ts, Plain t := by
  induction h with
  | nil => simp
  | cons kind count _ ih => simpa using ⟨Pool.plain_of_kind kind, count.plain, ih⟩

/-- There are no parentheses in the number of dice. -/
theorem Count.plain {ts : List Token} {x : Operand} (h : Count ts x) : ∀ t ∈ ts, Plain t := by
  cases h with
  | implicit => simp
  | written operand => simpa using operand.plain

/-- There are no parentheses in a dice term. -/
theorem Dice.plain {ts : List Token} {e : Expr} (h : Dice ts e) : ∀ t ∈ ts, Plain t := by
  cases h with
  | @hopeFear t ps ms _ _ kind pools tail =>
    have ht : Plain t := by simp [Plain, kind]
    simpa [or_imp, forall_and] using ⟨ht, pools.plain, tail.plain⟩
  | @sized d _ _ _ _ _ _ head kind size tail =>
    have hd : Plain d := by simp [Plain, kind]
    simpa [or_imp, forall_and] using ⟨head.plain, hd, size.plain, tail.plain⟩
  | @fate d _ _ _ _ head kind tail =>
    have hd : Plain d := by simp [Plain, kind]
    simpa [or_imp, forall_and] using ⟨head.plain, hd, tail.plain⟩

/-- What derives an expression opens as many parentheses as it closes. -/
theorem Derives.balanced {phrase : Phrase} {ts : List Token} {e : Expr}
    (h : Derives phrase ts e) : Balanced ts := by
  induction h with
  | number operand => exact balanced_of_plain (by simpa using operand.plain)
  | named operand => exact balanced_of_plain (by simpa using operand.plain)
  | parens opens closes _ ih => exact balanced_parens opens closes ih
  | dice term => exact balanced_of_plain term.plain
  | ofFactor _ ih => exact ih
  | product _ _ head _ ihl ihr => exact balanced_between ihl head.plain ihr
  | ofProduct _ ih => exact ih
  | sum _ _ head _ ihl ihr => exact balanced_between ihl head.plain ihr

end Tabletop.Grammar
