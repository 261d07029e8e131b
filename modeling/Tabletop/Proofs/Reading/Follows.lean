/-
  Which kinds of token stand side by side in what the grammar derives.

  1. **Pairs** — for each kind of token, the kinds that may stand right behind one (`followers`).
  2. **Pieces** — a piece of the grammar begins with some kinds, ends with some kinds, and has no
     other pairs inside (`Joined`).  Two pieces can be put together if all that the one ends with
     may stand before all that the other begins with, and this is looked up in the table.
  3. **Sentences** — so any two neighbours in a sentence are a pair of the table, by induction on
     the derivation.  A list of tokens with another pair in it is refused, whatever else is in it.
-/
import Mathlib.Data.List.Chain
import Tabletop.Proofs.Grammar

namespace Tabletop.Grammar

/-! ## Pairs -/

/-- The kinds that operands have. -/
def operandKinds : List TokenKind := [.number, .named]

/-- The kinds that a modifier begins with. -/
def modifierKinds : List TokenKind := [.modifier, .comparison]

/-- The kinds that name a pool. -/
def poolKinds : List TokenKind := [.advantage, .dice]

/-- The kinds that a factor begins with. -/
def factorKinds : List TokenKind := operandKinds ++ [.dice, .fate, .hopeFear, .openParen]

/-- The kinds that go on behind a factor. -/
def joinKinds : List TokenKind := [.operator, .closeParen, .target]

/-- The kinds that may stand behind a token of a kind. -/
def followers : TokenKind → List TokenKind
  | .number | .named => .fate :: poolKinds ++ modifierKinds ++ joinKinds
  | .dice | .advantage | .comparison => operandKinds
  | .hopeFear => poolKinds ++ modifierKinds ++ joinKinds
  | .fate => modifierKinds ++ joinKinds
  | .modifier => operandKinds ++ modifierKinds ++ joinKinds
  | .operator | .openParen => factorKinds
  | .closeParen => joinKinds
  | .target => [.comparison]
  | .finish => []

/-- The second token is of a kind that may stand behind the first one. -/
def Follows (t u : Token) : Prop := u.kind ∈ followers t.kind

/-! ## Pieces -/

/-- The tokens begin with a kind of the first list and end with one of the second, if there are any,
    and each of them may stand behind the one before it. -/
structure Joined (firsts lasts : List TokenKind) (ts : List Token) : Prop where
  chain : ts.IsChain Follows
  first : ∀ t ∈ ts.head?, t.kind ∈ firsts
  last : ∀ t ∈ ts.getLast?, t.kind ∈ lasts

namespace Joined

variable {firsts lasts firsts' lasts' : List TokenKind} {t : Token} {ts us : List Token}

theorem nil : Joined firsts lasts [] := ⟨.nil, by simp, by simp⟩

/-- One token is a piece of what it begins and ends with. -/
theorem single (hfirst : t.kind ∈ firsts) (hlast : t.kind ∈ lasts) : Joined firsts lasts [t] :=
  ⟨.singleton t, by simpa using hfirst, by simpa using hlast⟩

/-- More kinds may be named for the ends than are needed. -/
theorem mono (h : Joined firsts lasts ts) (hfirsts : firsts ⊆ firsts') (hlasts : lasts ⊆ lasts') :
    Joined firsts' lasts' ts :=
  ⟨h.chain, fun t ht => hfirsts (h.first t ht), fun t ht => hlasts (h.last t ht)⟩

/-- Pieces are put together.  If one of them may be empty, the other one has to begin or end for
    it. -/
theorem append (h : Joined firsts lasts ts) (h' : Joined firsts' lasts' us)
    (hpairs : ∀ k ∈ lasts, ∀ k' ∈ firsts', k' ∈ followers k)
    (hfirsts : ts = [] → firsts' ⊆ firsts) (hlasts : us = [] → lasts ⊆ lasts') :
    Joined firsts lasts' (ts ++ us) := by
  refine ⟨List.isChain_append.mpr ⟨h.chain, h'.chain, fun t ht u hu => ?_⟩, fun t ht => ?_,
    fun t ht => ?_⟩
  · exact hpairs _ (h.last t ht) _ (h'.first u hu)
  · cases ts with
    | nil => exact hfirsts rfl (h'.first t ht)
    | cons u ts => exact h.first t ht
  · cases hus : us with
    | nil =>
      rw [hus, List.append_nil] at ht
      exact hlasts hus (h.last t ht)
    | cons u us' =>
      rw [List.getLast?_append_of_ne_nil ts (by simp [hus])] at ht
      exact h'.last t ht

/-- A token is put before a piece that is not empty. -/
theorem cons (hfirst : t.kind ∈ firsts) (h : Joined firsts' lasts ts) (hne : ts ≠ [])
    (hpairs : ∀ k' ∈ firsts', k' ∈ followers t.kind) : Joined firsts lasts (t :: ts) := by
  have hsingle : Joined firsts [t.kind] [t] := .single hfirst (by simp)
  exact hsingle.append h (by simpa using hpairs) (by simp) fun hnil => absurd hnil hne

end Joined

theorem IsOperand.kind_mem {t : Token} {x : Operand} (h : IsOperand t x) :
    t.kind ∈ operandKinds := by
  cases h with
  | number kind => simp [operandKinds, kind]
  | named kind => simp [operandKinds, kind]

/-- An operand is a number or a name. -/
theorem IsOperand.joined {t : Token} {x : Operand} (h : IsOperand t x) :
    Joined operandKinds operandKinds [t] :=
  .single h.kind_mem h.kind_mem

/-- The kinds that modifiers end with. -/
def modifierEnds : List TokenKind := .modifier :: operandKinds

/-- A modifier begins with its word or a comparison and ends with an operand, or with its word. -/
theorem IsModifier.joined {ts : List Token} {m : Modifier} (h : IsModifier ts m) :
    Joined modifierKinds operandKinds ts := by
  -- A word and an operand, with a comparison between them or not, or in place of the word.
  have hword : ∀ {t o : Token} {word x}, IsWord t word → IsOperand o x →
      Joined modifierKinds operandKinds [t, o] := fun head operand =>
    operand.joined.cons (by rw [head.1]; decide) (by simp) (by rw [head.1]; decide)
  have hcheck : ∀ {c o : Token} {op x}, IsComparison c op → IsOperand o x →
      Joined modifierKinds operandKinds [c, o] := fun comparison operand =>
    operand.joined.cons (by rw [comparison.1]; decide) (by simp) (by rw [comparison.1]; decide)
  have hlong : ∀ {t c o : Token} {word op x}, IsWord t word → IsComparison c op →
      IsOperand o x → Joined modifierKinds operandKinds [t, c, o] :=
    fun head comparison operand =>
      (hcheck comparison operand).cons (by rw [head.1]; decide) (by simp) (by rw [head.1]; decide)
  cases h with
  | selection _ head count => exact hword head count
  | explosion head comparison threshold => exact hlong head comparison threshold
  | bareReroll _ head threshold => exact hword head threshold
  | reroll _ head comparison threshold => exact hlong head comparison threshold
  | successCheck comparison threshold => exact hcheck comparison threshold

/-- Modifiers begin as the first one and end as the last one. -/
theorem Modifiers.joined {ts : List Token} {ms : List Modifier} (h : Modifiers ts ms) :
    Joined modifierKinds modifierEnds ts := by
  induction h with
  | nil => exact .nil
  | cons head _ ih =>
    exact head.joined.append ih (by decide) (fun _ => List.Subset.refl _) (fun _ => by decide)
  | bareExplosion head _ _ ih =>
    have hsingle : Joined modifierKinds [.modifier] [_] :=
      .single (by rw [head.1]; decide) (by rw [head.1]; decide)
    exact hsingle.append ih (by decide) (by simp) (fun _ => by decide)

/-- Pools begin with the letter of the first one and end with the count of the last one. -/
theorem Pools.joined {ts : List Token} {items : List (Pool × Operand)} (h : Pools ts items) :
    Joined poolKinds operandKinds ts := by
  induction h with
  | nil => exact .nil
  | @cons t o rest pool x items kind count _ ih =>
    have hkind : t.kind ∈ poolKinds := by
      rw [kind]
      cases pool <;> decide
    have hnext : ∀ k ∈ poolKinds, ∀ k' ∈ operandKinds, k' ∈ followers k := by decide
    have hpool : Joined poolKinds operandKinds [t, o] :=
      count.joined.cons hkind (by simp) (hnext _ hkind)
    exact hpool.append ih (by decide) (by simp) (fun _ => List.Subset.refl _)

/-- The kinds that a factor ends with. -/
def factorEnds : List TokenKind := modifierEnds ++ [.fate, .hopeFear, .closeParen]

/-- A die with what stands before it, behind which modifiers follow. -/
theorem Count.joined {cs : List Token} {x : Operand} (h : Count cs x) {d : Token}
    (hkind : d.kind ∈ [TokenKind.dice, .fate]) : Joined factorKinds [d.kind] (cs ++ [d]) := by
  have hfirst : ∀ k ∈ [TokenKind.dice, .fate], k ∈ factorKinds := by decide
  have hpair : ∀ k' ∈ [TokenKind.dice, .fate], ∀ k ∈ operandKinds, k' ∈ followers k := by decide
  have hdie : Joined [d.kind] [d.kind] [d] := .single (by simp) (by simp)
  cases h with
  | implicit => exact .single (hfirst _ hkind) (by simp)
  | written operand =>
    have hcount : Joined factorKinds operandKinds [_] := operand.joined.mono (by decide) (by decide)
    exact hcount.append hdie (by simpa using hpair _ hkind) (by simp) (by simp)

/-- A dice term begins and ends as a factor may. -/
theorem Dice.joined {ts : List Token} {e : Expr} (h : Dice ts e) :
    Joined factorKinds factorEnds ts := by
  cases h with
  | @hopeFear t ps ms _ _ kind pools tail =>
    have hhead : Joined factorKinds [.hopeFear] [t] :=
      .single (by rw [kind]; decide) (by rw [kind]; decide)
    have hpools : Joined (poolKinds ++ modifierKinds) operandKinds ps :=
      pools.joined.mono (by decide) (by decide)
    have hbehind : Joined (poolKinds ++ modifierKinds) factorEnds (ps ++ ms) :=
      (hpools.append tail.joined (by decide) (fun _ => by decide) (fun _ => by decide)).mono
        (by decide) (by decide)
    exact hhead.append hbehind (by decide) (by simp) (fun _ => by decide)
  | @sized d s cs ms _ _ _ head kind size tail =>
    have hdie := head.joined (d := d) (by rw [kind]; decide)
    have hsize : Joined operandKinds modifierEnds (s :: ms) :=
      size.joined.append tail.joined (by decide) (by simp) (fun _ => by decide)
    have hall := hdie.append hsize (by rw [kind]; decide) (by simp) (by simp)
    rw [List.append_assoc, List.singleton_append] at hall
    exact hall.mono (by decide) (by decide)
  | @fate d cs ms _ _ head kind tail =>
    have hdie := head.joined (d := d) (by rw [kind]; decide)
    have hends : Joined modifierKinds factorEnds ms := tail.joined.mono (by decide) (by decide)
    have hall := hdie.append hends (by rw [kind]; decide) (by simp)
      (fun _ => by rw [kind]; decide)
    rwa [List.append_assoc, List.singleton_append] at hall

/-! ## Sentences -/

/-- A phrase has at least one token. -/
theorem Derives.ne_nil {phrase : Phrase} {ts : List Token} {e : Expr} (h : Derives phrase ts e) :
    ts ≠ [] := by
  induction h with
  | dice term => cases term <;> simp
  | ofFactor _ ih | ofProduct _ ih => exact ih
  | _ => simp

/-- Two factors with an operator between them. -/
theorem Joined.operator {ls rs : List Token} {t : Token} {op : Operator}
    (hl : Joined factorKinds factorEnds ls) (head : IsOperator t op)
    (hr : Joined factorKinds factorEnds rs) (hls : ls ≠ []) (hrs : rs ≠ []) :
    Joined factorKinds factorEnds (ls ++ t :: rs) := by
  have hbehind : Joined [.operator] factorEnds (t :: rs) :=
    hr.cons (by rw [head.1]; decide) hrs (by rw [head.1]; decide)
  exact hl.append hbehind (by decide) (fun hnil => absurd hnil hls) (by simp)

/-- A phrase begins and ends as a factor may: induction on the derivation. -/
theorem Derives.joined {phrase : Phrase} {ts : List Token} {e : Expr} (h : Derives phrase ts e) :
    Joined factorKinds factorEnds ts := by
  induction h with
  | number operand | named operand =>
    exact operand.joined.mono (by decide) (by decide)
  | @parens o c ts _ opens closes inner ih =>
    have hclose : Joined [.closeParen] factorEnds [c] :=
      .single (by rw [closes]; decide) (by rw [closes]; decide)
    have hbehind : Joined factorKinds factorEnds (ts ++ [c]) :=
      ih.append hclose (by decide) (fun hnil => absurd hnil inner.ne_nil) (by simp)
    exact hbehind.cons (by rw [opens]; decide) (by simp) (by rw [opens]; decide)
  | dice term => exact term.joined
  | ofFactor _ ih | ofProduct _ ih => exact ih
  | product left _ head right ihl ihr | sum left _ head right ihl ihr =>
    exact ihl.operator head ihr left.ne_nil right.ne_nil

/-- **Neighbours.**  In a sentence each token may stand behind the one before it. -/
theorem Sentence.isChain {ts : List Token} {e : Expr} (h : Sentence ts e) :
    ts.IsChain Follows := by
  cases h with
  | plain only => exact only.joined.chain
  | @target t c o ts e _ _ inner kind comparison threshold =>
    have hcheck : Joined [.comparison] operandKinds [c, o] :=
      threshold.joined.cons (by rw [comparison.1]; decide) (by simp)
        (by rw [comparison.1]; decide)
    have hend : Joined [.target] operandKinds [t, c, o] :=
      hcheck.cons (by rw [kind]; decide) (by simp) (by rw [kind]; decide)
    exact (inner.joined.append hend (by decide) (fun hnil => absurd hnil inner.ne_nil)
      (by simp)).chain

end Tabletop.Grammar
