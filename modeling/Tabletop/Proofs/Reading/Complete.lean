/-
  Readers are complete: what derives an expression is read as that expression.

  1. **Factors** are tried as dice first, so before an atom that attempt has to fail.  It does
     because it is sound: had it succeeded, the tokens at the cursor would begin as a dice term
     does, and an atom with the end of a factor behind it does not.
  2. **Chains** are derived from the right, an operator and an operand behind a shorter chain, and
     read from the left.  `Unrolls` is what both have in common: wherever the reading of a chain has
     come to, the chain so far stands for its first operand.
-/
import Tabletop.Proofs.Reading.Takes

namespace Tabletop.Reader

open Grammar

/-! ## Factors -/

/-- Whether tokens begin as a dice term does: with the letter of one, or with a count and then the
    letter. -/
def BeginsDice (ts : List Token) : Prop :=
  ∃ t rest, ts = t :: rest ∧ (t.kind ∈ [.hopeFear, .dice, .fate] ∨
    t.kind ∈ [.number, .named] ∧ ∃ d ∈ rest.head?, d.kind ∈ [.dice, .fate])

/-- A dice term begins as dice do, whatever stands behind it. -/
theorem Dice.begins {ts : List Token} {e : Expr} (h : Dice ts e) (rest : List Token) :
    BeginsDice (ts ++ rest) := by
  -- The letter of a die, with or without a count before it.
  have counted : ∀ {cs more : List Token} {count : Operand} {d : Token}, Count cs count →
      d.kind ∈ [TokenKind.dice, .fate] → BeginsDice (cs ++ d :: more) := by
    intro cs more count d hcount hd
    cases hcount with
    | implicit => exact ⟨d, more, rfl, Or.inl (List.mem_cons_of_mem _ hd)⟩
    | @written t x operand =>
      refine ⟨t, d :: more, rfl, Or.inr ⟨?_, d, rfl, hd⟩⟩
      cases operand with
      | number kind => simp [kind]
      | named kind => simp [kind]
  cases h with
  | hopeFear kind _ _ => exact ⟨_, _, rfl, Or.inl (by simp [kind])⟩
  | sized head kind _ _ =>
    rw [List.append_assoc]
    exact counted head (by simp [kind])
  | fate head kind _ =>
    rw [List.append_assoc]
    exact counted head (by simp [kind])

/-- What does not begin as a dice term is read as an atom. -/
theorem factor_takes_atom {ts : List Token} {e : Expr} {atom : Reader Expr}
    (h : Takes EndsFactor ts e atom)
    (hno : ∀ rest, (∀ u ∈ rest.head?, EndsFactor u) → ¬ BeginsDice (ts ++ rest)) :
    Takes EndsFactor ts e (factor atom) := by
  intro c rest hc hu hs
  have hrest : ∀ u ∈ rest.head?, EndsFactor u := by
    cases rest with
    | nil => simp
    | cons u rest => simpa using hs
  have hdice := dice_reads hc
  unfold factor
  generalize dice c = r at hdice
  cases hdice with
  | @ok used e' c' unread last within related =>
    -- The attempt is sound, so where it succeeds the tokens begin as a dice term does.
    have hbegins := Dice.begins related c'.unread
    rw [← unread, hu] at hbegins
    exact absurd hbegins (hno rest hrest)
  | @error cause token c' mem => exact h _ rest ⟨hc.unread, hc.last⟩ hu hs

/-- A dice term that dice are read of is read as a factor. -/
theorem factor_takes_dice {ts : List Token} {e : Expr} {atom : Reader Expr}
    (h : Takes EndsFactor ts e dice) : Takes EndsFactor ts e (factor atom) := by
  intro c rest hc hu hs
  obtain ⟨c', hrun, hc'⟩ := h c rest hc hu hs
  exact ⟨c', by rw [factor, hrun], hc'⟩

/-- What reads the inside of parentheses, where there is room for so many. -/
def innerAt (limit : Int) : Nat → Option (Reader Expr)
  | 0 => none
  | room + 1 => some (expressionAt limit room)

/-- An expression is a sum of atoms, in whose parentheses stand expressions with room for one pair
    less. -/
theorem expressionAt_eq (limit : Int) (room : Nat) :
    expressionAt limit room = sum (atom limit (innerAt limit room)) := by
  cases room <;> rfl

/-- One token that is an operand is an atom, not dice, where a whole factor ends behind it. -/
theorem not_beginsDice_single {t : Token} (hk : t.kind = .number ∨ t.kind = .named)
    (rest : List Token) (hrest : ∀ u ∈ rest.head?, EndsFactor u) : ¬ BeginsDice ([t] ++ rest) := by
  rintro ⟨t, rest, ⟨⟩, hletter | ⟨-, d, hd, hdk⟩⟩
  · rcases hk with hk | hk
    all_goals simp [hk] at hletter
  · have hends := hrest d hd
    have hdk' : d.kind = .dice ∨ d.kind = .fate := by simpa using hdk
    rcases hdk' with hdk | hdk
    all_goals simp [EndsFactor, hdk] at hends

/-- A number by itself is a factor. -/
theorem number_atom_takes {t : Token} {n : Int} (h : IsOperand t (.number n))
    (hw : t.WithinLimits) (limit : Int) (inner : Option (Reader Expr)) :
    Takes (fun _ => True) [t] (.number n) (atom limit inner) := by
  cases h with
  | number kind =>
    unfold atom
    refine .look ?_
    rw [kind]
    exact (number_takes kind hw).map _

/-- A variable by itself is a factor. -/
theorem named_atom_takes {t : Token} {name : String} (h : IsOperand t (.named name))
    (hw : t.WithinLimits) (limit : Int) (inner : Option (Reader Expr)) :
    Takes (fun _ => True) [t] (.named name) (atom limit inner) := by
  cases h with
  | named kind =>
    unfold atom
    refine .look ?_
    rw [kind]
    exact (name_takes kind hw).map _

/-- Parentheses are taken with what stands in them, which ends at the one that closes. -/
theorem parens_takes {o k : Token} {ts : List Token} {e : Expr} {stop : Token → Prop}
    (opens : o.kind = .openParen) (closes : k.kind = .closeParen) {expression : Reader Expr}
    (h : Takes stop ts e expression) (hstop : stop k) (limit : Int) :
    Takes (fun _ => True) (o :: (ts ++ [k])) e (atom limit (some expression)) := by
  have hopen : Takes (fun _ => True) [] () openParen :=
    fun c rest hc hu _ => ⟨{ c with nesting := c.nesting + 1 }, rfl, hu, rfl⟩
  have hclose : Takes (fun _ => True) [] e (closeParen >>= fun _ => pure e) :=
    fun c rest hc hu _ => ⟨{ c with nesting := c.nesting - 1 }, rfl, hu, rfl⟩
  unfold atom
  refine .look ?_
  rw [opens]
  refine Takes.bind_any hopen (Takes.bind_any .take (h.bind ?_ ?_ (by simp)))
  · exact Takes.bind_any (.expect closes) hclose
  · rintro u ⟨⟩
    exact hstop

/-! ## Chains -/

/-- However far the reading of a chain has come, the rest of it is read as if the chain so far had
    been its first operand: behind `ts` a reading of the chain is a reading of what follows `e`. -/
def Unrolls (stop : Token → Prop) (accepted : List Operator) (operand : Reader Expr)
    (ts : List Token) (e : Expr) : Prop :=
  ∀ (c : Cursor) (rest : List Token), c.WellFormed → c.unread = ts ++ rest →
    stop (rest.headD c.last) → ∃ (c' : Cursor) (rounds : List Token),
      chain accepted operand c = chainFrom accepted operand rounds e c' ∧
        c'.unread = rest ∧ c'.last = c.last ∧ rest.length ≤ rounds.length

namespace Unrolls

variable {stop upper : Token → Prop} {accepted : List Operator} {operand : Reader Expr}
variable {ts ls rs : List Token} {e l r : Expr} {t : Token} {op : Operator}

/-- A chain may be a single operand. -/
theorem first (h : Takes stop ts e operand) : Unrolls stop accepted operand ts e := by
  intro c rest hc hu hs
  obtain ⟨c', hrun, hu', hl'⟩ := h c rest hc hu hs
  refine ⟨c', rest, ?_, hu', hl', Nat.le_refl _⟩
  rw [chain, Run.bind_of_ok hrun]
  show chainFrom accepted operand c'.unread e c' = _
  rw [hu']

/-- One round more: an operator and an operand. -/
theorem step (hl : Unrolls stop accepted operand ls l) (ht : operatorOf accepted t = some op)
    (hstop : stop t) (hr : Takes stop rs r operand) :
    Unrolls stop accepted operand (ls ++ t :: rs) (.binary op l r) := by
  intro c rest hc hu hs
  have hu₀ : c.unread = ls ++ (t :: (rs ++ rest)) := by
    rw [hu, List.append_assoc, List.cons_append]
  obtain ⟨c₁, rounds, hrun, hu₁, hl₁, hlen⟩ := hl c (t :: (rs ++ rest)) hc hu₀ hstop
  have hc₁ : c₁.WellFormed := wellFormed_of_append hc (by rw [hu₀, hu₁]) hl₁
  have hunext : c₁.next.unread = rs ++ rest := next_of_unread hu₁
  have hlnext : c₁.next.last = c.last := c₁.next_last.trans hl₁
  have hsplit : c₁.unread = [t] ++ c₁.next.unread := by
    rw [hu₁, hunext]
    rfl
  have hcnext : c₁.next.WellFormed := wellFormed_of_append hc₁ hsplit c₁.next_last
  -- The rounds last, since each of them takes a token at least.
  cases rounds with
  | nil => simp at hlen
  | cons round rounds =>
    obtain ⟨c₂, hrun₂, hu₂, hl₂⟩ := hr c₁.next rest hcnext hunext (by rw [hlnext]; exact hs)
    refine ⟨c₂, rounds, ?_, hu₂, hl₂.trans hlnext, ?_⟩
    · rw [hrun, chainFrom_cons_run, current_of_unread hu₁, ht]
      show (operand >>= _) c₁.next = _
      rw [Run.bind_of_ok hrun₂]
    · simp only [List.length_cons, List.length_append] at hlen
      omega

/-- A chain is taken where no operator of it follows. -/
theorem takes (h : Unrolls stop accepted operand ts e) (hlower : ∀ u, upper u → stop u)
    (hnone : ∀ u, upper u → operatorOf accepted u = none) :
    Takes upper ts e (chain accepted operand) := by
  intro c rest hc hu hs
  obtain ⟨c', rounds, hrun, hu', hl', -⟩ := h c rest hc hu (hlower _ hs)
  refine ⟨c', ?_, hu', hl'⟩
  rw [hrun]
  cases rounds with
  | nil => rfl
  | cons round rounds =>
    have hcur : c'.current = rest.headD c.last := by
      rw [Cursor.current, hu', hl']
    rw [chainFrom_cons_run, hcur, hnone _ hs]
    rfl

end Unrolls

/-- The token of an operator is read as the one of its symbol, if that is accepted. -/
theorem operatorOf_of_isOperator {t : Token} {op : Operator} {accepted : List Operator}
    (h : IsOperator t op) (hfind : accepted.find? (·.symbol == op.symbol) = some op) :
    operatorOf accepted t = some op := by
  rw [operatorOf, if_pos h.1, h.2, hfind]

/-- A token of another kind is read as no operator. -/
theorem operatorOf_eq_none {u : Token} (h : u.kind ≠ .operator) (accepted : List Operator) :
    operatorOf accepted u = none := by
  rw [operatorOf, if_neg h]

/-- A token behind a whole product. -/
def EndsProduct (u : Token) : Prop := EndsFactor u ∧ operatorOf [.mul, .div] u = none

/-- A token behind a whole sum. -/
def EndsSum (u : Token) : Prop := u.kind ∈ [.target, .closeParen, .finish]

/-- What ends a sum is no operator. -/
theorem EndsSum.kind_ne_operator {u : Token} (h : EndsSum u) : u.kind ≠ .operator := by
  intro hk
  simp [EndsSum, hk] at h

/-- What ends a sum ends a product. -/
theorem EndsSum.endsProduct {u : Token} (h : EndsSum u) : EndsProduct u :=
  ⟨List.mem_cons_of_mem _ h, operatorOf_eq_none (EndsSum.kind_ne_operator h) _⟩

/-- The reader of factors with room for so many parentheses. -/
def factorAt (limit : Int) (room : Nat) : Reader Expr := factor (atom limit (innerAt limit room))

/-- What it means that the readers with room for so many parentheses take a phrase. -/
def TakesPhrase (limit : Int) (room : Nat) : Phrase → List Token → Expr → Prop
  | .factor, ts, e => Takes EndsFactor ts e (factorAt limit room)
  | .product, ts, e => Unrolls EndsFactor [.mul, .div] (factorAt limit room) ts e
  | .sum, ts, e => Unrolls EndsProduct [.add, .sub] (chain [.mul, .div] (factorAt limit room)) ts e

/-- What is read of a product, as a chain of factors. -/
theorem takes_product {limit : Int} {room : Nat} {ts : List Token} {e : Expr}
    (h : TakesPhrase limit room .product ts e) :
    Takes EndsProduct ts e (chain [.mul, .div] (factorAt limit room)) :=
  Unrolls.takes h (fun _ hu => hu.1) fun _ hu => hu.2

/-- What is read of a sum, as an expression. -/
theorem takes_sum {limit : Int} {room : Nat} {ts : List Token} {e : Expr}
    (h : TakesPhrase limit room .sum ts e) : Takes EndsSum ts e (expressionAt limit room) := by
  rw [expressionAt_eq]
  refine Unrolls.takes h (fun u hu => EndsSum.endsProduct hu) fun u hu => ?_
  exact operatorOf_eq_none (EndsSum.kind_ne_operator hu) _

/-- **Induction on the derivation**, for any room in which its parentheses nest. -/
theorem takesPhrase_of_derives {phrase : Phrase} {ts : List Token} {e : Expr}
    (h : Derives phrase ts e) (limit : Int) :
    ∀ room : Nat, NestsWithin room ts → (∀ t ∈ ts, t.WithinLimits) →
      TakesPhrase limit room phrase ts e := by
  induction h with
  | @number t n operand =>
    intro room _ hw
    have hk : t.kind = .number := by cases operand with | number kind => exact kind
    have hatom := number_atom_takes operand (hw t List.mem_cons_self) limit (innerAt limit room)
    exact factor_takes_atom (hatom.weaken fun _ _ => trivial) (not_beginsDice_single (Or.inl hk))
  | @named t name operand =>
    intro room _ hw
    have hk : t.kind = .named := by cases operand with | named kind => exact kind
    have hatom := named_atom_takes operand (hw t List.mem_cons_self) limit (innerAt limit room)
    exact factor_takes_atom (hatom.weaken fun _ _ => trivial) (not_beginsDice_single (Or.inr hk))
  | @parens o k ts e opens closes inner ih =>
    intro room hnest hw
    obtain ⟨hroom, hinner⟩ := (nestsWithin_parens opens closes inner.balanced room).mp hnest
    obtain ⟨room, rfl⟩ := Nat.exists_eq_succ_of_ne_zero hroom
    have hsum := takes_sum (ih room hinner fun u hu => hw u (by simp [hu]))
    have hatom := parens_takes opens closes hsum (by simp [EndsSum, closes]) limit
    refine factor_takes_atom (hatom.weaken fun _ _ => trivial) ?_
    -- No dice term begins with a parenthesis.
    rintro rest - ⟨t, more, ⟨⟩, hletter | ⟨hcount, -⟩⟩
    · simp [opens] at hletter
    · simp [opens] at hcount
  | dice term =>
    intro room _ hw
    exact factor_takes_dice (dice_takes term hw)
  | ofFactor _ ih =>
    intro room hnest hw
    exact Unrolls.first (ih room hnest hw)
  | @product t ls rs op l r left listed head right ihl ihr =>
    intro room hnest hw
    rw [left.balanced, nestsWithin_cons_of_plain head.plain] at hnest
    have hop : operatorOf [.mul, .div] t = some op := by
      refine operatorOf_of_isOperator head ?_
      simp only [List.mem_cons, List.not_mem_nil, or_false] at listed
      rcases listed with rfl | rfl
      all_goals rfl
    have hleft := ihl room hnest.1 fun u hu => hw u (by simp [hu])
    have hright := ihr room hnest.2 fun u hu => hw u (by simp [hu])
    exact Unrolls.step hleft hop (by simp [EndsFactor, head.1]) hright
  | ofProduct _ ih =>
    intro room hnest hw
    exact Unrolls.first (takes_product (ih room hnest hw))
  | @sum t ls rs op l r left listed head right ihl ihr =>
    intro room hnest hw
    rw [left.balanced, nestsWithin_cons_of_plain head.plain] at hnest
    have hop : operatorOf [.add, .sub] t = some op ∧ operatorOf [.mul, .div] t = none := by
      simp only [List.mem_cons, List.not_mem_nil, or_false] at listed
      refine ⟨operatorOf_of_isOperator head ?_, ?_⟩
      · rcases listed with rfl | rfl
        all_goals rfl
      · rw [operatorOf, if_pos head.1, head.2]
        rcases listed with rfl | rfl
        all_goals rfl
    have hleft := ihl room hnest.1 fun u hu => hw u (by simp [hu])
    have hright := ihr room hnest.2 fun u hu => hw u (by simp [hu])
    have hends : EndsProduct t := ⟨by simp [EndsFactor, head.1], hop.2⟩
    exact Unrolls.step hleft hop.1 hends (takes_product hright)

/-! ## Whole texts -/

/-- A whole sentence is read up to its end, with the target clause if it has one. -/
theorem target_takes {limit : Int} {room : Nat} {ts : List Token} {e : Expr}
    (h : Sentence ts e) (hnest : NestsWithin room ts) (hw : ∀ t ∈ ts, t.WithinLimits) :
    Takes (fun u => u.kind = .finish) ts e (target (expressionAt limit room)) := by
  cases h with
  | plain only =>
    have hsum := takes_sum (takesPhrase_of_derives only limit room hnest hw)
    refine hsum.bind_nil (.look_behind fun u hu => ?_) fun u hu => ?_
    · rw [if_neg (by simp [hu])]
      exact .pure
    · simp [EndsSum, hu]
  | @target t k o ts e op x inner kind comparison threshold =>
    have hsum := takes_sum (takesPhrase_of_derives inner limit room
      ((inner.balanced room _).mp hnest).1 fun u hu => hw u (by simp [hu]))
    refine hsum.bind (.look ?_) ?_ (by simp)
    · rw [if_pos kind]
      refine Takes.bind_any .take (Takes.bind_any (.expect comparison.1) ?_)
      rw [comparison_of_isComparison comparison, pure_bind]
      refine (operand_takes_bind threshold (hw o (by simp)) _).weaken fun _ _ => trivial
    · rintro u ⟨⟩
      simp [EndsSum, kind]

/-- Reading a whole list of tokens that derive an expression gives that expression. -/
theorem whole_of_sentence (limit : Int) {c : Cursor} {e : Expr} (hc : c.WellFormed)
    (h : Sentence c.unread e) (hnest : NestsWithin (limit - c.nesting).toNat c.unread)
    (hw : ∀ t ∈ c.unread, t.WithinLimits) : ∃ c', whole limit c = .ok e c' := by
  obtain ⟨c', hrun, hu, hl⟩ := target_takes h hnest hw c [] hc (by simp) hc.last
  refine ⟨c', ?_⟩
  rw [whole, Run.bind_of_ok hrun]
  have hcur : c'.current = c.last := by
    rw [Cursor.current, hu, hl]
    rfl
  show ((if c'.current.kind = .finish then pure e
    else refuse .unexpected c'.current : Reader Expr) c') = _
  rw [if_pos (by rw [hcur]; exact hc.last)]
  rfl

end Tabletop.Reader
