/-
  The operands that an expression holds, held against those that are written.

  1. **Operands** — a token that is a number or a variable is an operand, and wherever an expression
     holds a number, a name or an operand, that is one.
  2. **Pools** — behind a marker of Hope/Fear dice stand counts of pools.  The roll holds one count
     of each pool: 0 where none is written, and the last one where there are several, so that the
     others are overwritten.
  3. **Told by the tokens** — dice without a count hold a 1.  Whether a count stands before them is
     told by the token there, and whether the letter of dice names a pool by those since the last
     marker.  So what is held and not written, and what is written and not held, is told by the
     tokens alone.
  4. **The balance** — what is written with what is implied is what is held with what is
     overwritten: induction on the derivation.  So nothing that is written is lost just if no pool
     has two counts.
-/
import Mathlib
import Tabletop.Evaluation
import Tabletop.Proofs.Reading.Exact
import Tabletop.Proofs.Reading.Placed

namespace Tabletop

open Grammar

/-! ## Operands -/

/-- The operand that a token is, if it is one. -/
def Token.operand? (t : Token) : Option Operand :=
  match t.kind with
  | .number => some (.number (Nat.ofDigitChars 10 t.text.toList 0))
  | .named => some (.named (String.ofList (Text.upper (t.text.toList.drop 1))))
  | _ => none

/-- The operands written in tokens. -/
def writtenIn (ts : List Token) : Multiset Operand := ts.filterMap Token.operand?

/-- The operands of a modifier. -/
def Modifier.operands : Modifier → Multiset Operand
  | reroll m => {m.threshold}
  | explosion m => m.threshold.toList + (m.limit.map Operand.number).toList
  | selection m => {m.count}
  | successCheck m => {m.threshold}

/-- The operands of modifiers. -/
def Modifier.allOperands (modifiers : List Modifier) : Multiset Operand :=
  (modifiers.map operands).sum

/-- The operands in the size of a die. -/
def Sides.operands : Sides Operand → Multiset Operand
  | .faces x => {x}
  | .fate => 0

/-- The operands that an expression holds, its numbers and names among them. -/
def Expr.operands : Expr → Multiset Operand
  | .number n => {.number n}
  | .named name => {.named name}
  | .dice count sides modifiers => {count} + sides.operands + Modifier.allOperands modifiers
  | .hopeFear advantage disadvantage modifiers =>
    {advantage} + {disadvantage} + Modifier.allOperands modifiers
  | .binary _ left right => left.operands + right.operands
  | .target inner _ threshold => inner.operands + {threshold}
  | .missing => 0

/-- An operand of the grammar is the operand that its token is. -/
theorem Grammar.IsOperand.operand?_eq {t : Token} {x : Operand} (h : IsOperand t x) :
    t.operand? = some x := by
  cases h with
  | number kind | named kind => rw [Token.operand?, kind]

/-- A token of another kind is no operand. -/
theorem Token.operand?_eq_none {t : Token} (h : t.kind ∉ operandKinds) : t.operand? = none := by
  simp only [operandKinds, List.mem_cons, List.not_mem_nil, or_false, not_or] at h
  rw [operand?]
  split
  · exact absurd ‹_› h.1
  · exact absurd ‹_› h.2
  · rfl

/-- What is written in two parts is written in one or the other. -/
theorem writtenIn_append (ls rs : List Token) :
    writtenIn (ls ++ rs) = writtenIn ls + writtenIn rs := by
  rw [writtenIn, List.filterMap_append, ← Multiset.coe_add, writtenIn, writtenIn]

/-- An operand in front is one more that is written. -/
theorem writtenIn_cons_of_operand {t : Token} {x : Operand} (h : IsOperand t x) (ts : List Token) :
    writtenIn (t :: ts) = {x} + writtenIn ts := by
  rw [writtenIn, List.filterMap_cons_some h.operand?_eq, ← Multiset.cons_coe,
    ← Multiset.singleton_add, writtenIn]

/-- A token in front that is no operand writes none. -/
theorem writtenIn_cons_of_not_mem {t : Token} (h : t.kind ∉ operandKinds) (ts : List Token) :
    writtenIn (t :: ts) = writtenIn ts := by
  rw [writtenIn, List.filterMap_cons_none (Token.operand?_eq_none h), writtenIn]

theorem writtenIn_nil : writtenIn [] = 0 := rfl

/-! ## Pools -/

/-- The pool that a token of a kind names, if it names one. -/
def Grammar.Pool.ofKind? : TokenKind → Option Pool
  | .advantage => some .advantage
  | .dice => some .disadvantage
  | _ => none

/-- A pool with its count, if the first token names one and the second one is an operand. -/
def poolItem? (t o : Token) : Option (Pool × Operand) :=
  (Pool.ofKind? t.kind).bind fun pool => o.operand?.map (pool, ·)

/-- The pools that tokens begin with, each with its count. -/
def poolItems : List Token → List (Pool × Operand)
  | t :: o :: rest =>
    match poolItem? t o with
    | some item => item :: poolItems rest
    | none => []
  | _ => []

namespace Grammar.Pool

/-- The counts of a pool, in order. -/
def counts (pool : Pool) (items : List (Pool × Operand)) : List Operand :=
  (items.filter (·.1 = pool)).map (·.2)

/-- The count that a roll holds of a pool and that is not written. -/
def implied (pool : Pool) (items : List (Pool × Operand)) : Multiset Operand :=
  if pool.counts items = [] then {.number 0} else 0

/-- The counts that are written of a pool and that a roll does not hold. -/
def overwritten (pool : Pool) (items : List (Pool × Operand)) : Multiset Operand :=
  (pool.counts items).dropLast

/-- A pool is named by a token of its kind. -/
theorem ofKind?_kind (pool : Pool) : ofKind? pool.kind = some pool := by
  cases pool <;> rfl

/-- A token of another kind names no pool. -/
theorem ofKind?_eq_none {kind : TokenKind} (h : kind ∉ poolKinds) : ofKind? kind = none := by
  cases kind <;> first | rfl | exact absurd (by decide) h

/-- The last count of a pool is the one that is held. -/
theorem countOf_eq (pool : Pool) (items : List (Pool × Operand)) :
    countOf pool items = (pool.counts items).getLast?.getD (.number 0) := by
  rw [countOf, counts]
  congr 1
  induction items using List.reverseRecOn with
  | nil => rfl
  | append_singleton items item ih =>
    obtain ⟨named, x⟩ := item
    rw [List.reverse_append, List.filter_append, List.map_append]
    by_cases hpool : named = pool
    · simp [hpool]
    · have hother : (pool == named) = false := beq_eq_false_iff_ne.mpr (Ne.symm hpool)
      simp [hpool, hother, ih, List.lookup_cons]

/-- What is written of a pool and what is held of it. -/
theorem balance (pool : Pool) (items : List (Pool × Operand)) :
    (pool.counts items : Multiset Operand) + pool.implied items =
      {countOf pool items} + pool.overwritten items := by
  rw [countOf_eq, implied, overwritten]
  rcases List.eq_nil_or_concat (pool.counts items) with hnone | ⟨firsts, last, hsome⟩
  · rw [hnone]
    rfl
  · rw [hsome, List.concat_eq_append, if_neg (by simp), List.getLast?_concat, List.dropLast_concat,
      add_zero, ← Multiset.coe_add, add_comm]
    rfl

/-- Each count is one of its pool. -/
theorem counts_add (items : List (Pool × Operand)) :
    (items.map (·.2) : Multiset Operand) = advantage.counts items + disadvantage.counts items := by
  induction items with
  | nil => rfl
  | cons item items ih =>
    obtain ⟨pool, x⟩ := item
    rw [List.map_cons, ← Multiset.cons_coe, ih]
    cases pool with
    | advantage => exact (Multiset.cons_add x _ _).symm
    | disadvantage => exact (Multiset.add_cons x _ _).symm

/-- Nothing is overwritten just if no pool has two counts. -/
theorem overwritten_eq_zero (items : List (Pool × Operand)) :
    advantage.overwritten items + disadvantage.overwritten items = 0 ↔
      (items.map (·.1)).Nodup := by
  have hone : ∀ pool : Pool, pool.overwritten items = 0 ↔ (items.map (·.1)).count pool ≤ 1 := by
    intro pool
    have hlength : (pool.counts items).length = (items.map (·.1)).count pool := by
      rw [counts, List.length_map, ← List.countP_eq_length_filter, List.count, List.countP_map]
      exact List.countP_congr fun item _ => by simp
    rw [overwritten, Multiset.coe_eq_zero, ← List.length_eq_zero_iff, List.length_dropLast, hlength]
    omega
  rw [add_eq_zero, hone, hone, List.nodup_iff_count_le_one]
  refine ⟨fun h pool => ?_, fun h => ⟨h _, h _⟩⟩
  cases pool with
  | advantage => exact h.1
  | disadvantage => exact h.2

end Grammar.Pool

/-- Without the name of a pool, or without an operand behind it, there is no count of a pool. -/
theorem poolItem?_eq_none {t o : Token} (h : t.kind ∉ poolKinds ∨ o.kind ∉ operandKinds) :
    poolItem? t o = none := by
  rcases h with hname | hcount
  · rw [poolItem?, Pool.ofKind?_eq_none hname, Option.bind_none]
  · rw [poolItem?, Token.operand?_eq_none hcount]
    cases Pool.ofKind? t.kind <;> rfl

/-- Where no pool is named in front there are no counts. -/
theorem poolItems_cons_of_not_mem {t : Token} (h : t.kind ∉ poolKinds) (ts : List Token) :
    poolItems (t :: ts) = [] := by
  cases ts with
  | nil => rfl
  | cons o ts => rw [poolItems, poolItem?_eq_none (Or.inl h)]

/-- The kinds of tokens that are no operand, name no pool and begin no term. -/
def stopKinds : List TokenKind := .finish :: resetKinds

/-- Such a token ends the counts of pools. -/
theorem poolItems_append_of_stop {t : Token} (h : t.kind ∈ stopKinds) (ls rs : List Token) :
    poolItems (ls ++ t :: rs) = poolItems ls := by
  have hpool : ∀ k ∈ stopKinds, k ∉ poolKinds := by decide
  have hoperand : ∀ k ∈ stopKinds, k ∉ operandKinds := by decide
  fun_induction poolItems ls with
  | case1 u o rest item hitem ih => rw [List.cons_append, List.cons_append, poolItems, hitem, ih]
  | case2 u o rest hitem => rw [List.cons_append, List.cons_append, poolItems, hitem]
  | case3 ls hshort =>
    rcases ls with _ | ⟨u, _ | ⟨o, rest⟩⟩
    · exact poolItems_cons_of_not_mem (hpool _ h) rs
    · rw [List.singleton_append, poolItems, poolItem?_eq_none (Or.inr (hoperand _ h))]
    · exact absurd rfl (hshort u o rest)

/-- Behind a marker the pools are found, and no modifier is taken for one. -/
theorem poolItems_of_pools {ps ms : List Token} {items : List (Pool × Operand)}
    {modifiers : List Modifier} (h : Pools ps items) (tail : Modifiers ms modifiers) :
    poolItems (ps ++ ms) = items := by
  induction h with
  | nil =>
    rw [List.nil_append]
    cases ms with
    | nil => rfl
    | cons m ms =>
      have hpool : ∀ k ∈ modifierKinds, k ∉ poolKinds := by decide
      exact poolItems_cons_of_not_mem (hpool _ (tail.joined.first m rfl)) ms
  | @cons t o rest pool x items kind count _ ih =>
    have hitem : poolItem? t o = some (pool, x) := by
      rw [poolItem?, kind, Pool.ofKind?_kind, count.operand?_eq]
      rfl
    rw [List.cons_append, List.cons_append, poolItems, hitem, ih]

/-! ## Told by the tokens -/

/-- What a term holds that a token begins, and that is not written: the counts of pools that are not
    named behind it, and the count of dice if none stands before it. -/
def Token.implied (inPools counted : Bool) (t : Token) (later : List Token) : Multiset Operand :=
  if t.kind = .hopeFear then
    Pool.advantage.implied (poolItems later) + Pool.disadvantage.implied (poolItems later)
  else if t.marksTerm inPools && !counted then {.number 1} else 0

/-- What terms hold that is not written, where the token before may name a pool or not, and may be a
    count or not. -/
def impliedFrom (inPools counted : Bool) : List Token → Multiset Operand
  | [] => 0
  | t :: ts =>
    t.implied inPools counted ts + impliedFrom (t.keepsPools inPools) t.operand?.isSome ts

/-- What tokens of a whole text imply. -/
def impliedIn (ts : List Token) : Multiset Operand := impliedFrom false false ts

/-- The counts that are written behind markers of Hope/Fear dice and are not held. -/
def overwrittenIn : List Token → Multiset Operand
  | [] => 0
  | t :: ts =>
    (if t.kind = .hopeFear then
      Pool.advantage.overwritten (poolItems ts) + Pool.disadvantage.overwritten (poolItems ts)
    else 0) + overwrittenIn ts

namespace Token

variable {t : Token} {inPools counted : Bool} {later : List Token}

/-- A token that begins no term implies nothing. -/
theorem implied_of_marksTerm (h : t.marksTerm inPools = false) :
    t.implied inPools counted later = 0 := by
  have hmarker : t.kind ≠ .hopeFear := fun hkind => by
    rw [marksTerm, hkind] at h
    cases h
  rw [implied, if_neg hmarker, h, Bool.false_and, if_neg Bool.false_ne_true]

/-- What a token implies is told before the next token that ends pools. -/
theorem implied_append_of_stop {u : Token} (h : u.kind ∈ stopKinds) (rs : List Token) :
    t.implied inPools counted (later ++ u :: rs) = t.implied inPools counted later := by
  rw [implied, implied, poolItems_append_of_stop h]

/-- Such a token begins no term. -/
theorem marksTerm_of_stop (h : t.kind ∈ stopKinds) : t.marksTerm inPools = false := by
  simp only [stopKinds, resetKinds, List.mem_cons, List.not_mem_nil, or_false] at h
  rw [marksTerm]
  rcases h with h | h | h | h | h | h | h <;> rw [h]

/-- Behind such a token no pool is named. -/
theorem keepsPools_of_stop (h : t.kind ∈ stopKinds) : t.keepsPools inPools = false := by
  simp only [stopKinds, resetKinds, List.mem_cons, List.not_mem_nil, or_false] at h
  rw [keepsPools]
  rcases h with h | h | h | h | h | h | h <;> rw [h]

/-- Such a token is no count of dice. -/
theorem operand?_of_stop (h : t.kind ∈ stopKinds) : t.operand? = none := by
  have hoperand : ∀ k ∈ stopKinds, k ∉ operandKinds := by decide
  exact operand?_eq_none (hoperand _ h)

end Token

section Stop

variable {t : Token} (h : t.kind ∈ stopKinds)
include h

/-- Behind such a token it is told anew what is implied. -/
theorem impliedFrom_cons_of_stop (inPools counted : Bool) (ts : List Token) :
    impliedFrom inPools counted (t :: ts) = impliedIn ts := by
  rw [impliedFrom, Token.implied_of_marksTerm (Token.marksTerm_of_stop h),
    Token.keepsPools_of_stop h, Token.operand?_of_stop h, zero_add]
  rfl

/-- What is implied is told on each side of such a token by itself: induction on the tokens before
    it. -/
theorem impliedFrom_append_of_stop (inPools counted : Bool) (ls rs : List Token) :
    impliedFrom inPools counted (ls ++ t :: rs) =
      impliedFrom inPools counted ls + impliedIn rs := by
  induction ls generalizing inPools counted with
  | nil => rw [List.nil_append, impliedFrom_cons_of_stop h, impliedFrom, zero_add]
  | cons l ls ih =>
    rw [List.cons_append, impliedFrom, impliedFrom, ih, Token.implied_append_of_stop h, add_assoc]

theorem overwrittenIn_cons_of_stop (ts : List Token) :
    overwrittenIn (t :: ts) = overwrittenIn ts := by
  have hmarker : ∀ k ∈ stopKinds, k ≠ .hopeFear := by decide
  rw [overwrittenIn, if_neg (hmarker _ h), zero_add]

/-- What is overwritten is told on each side of such a token by itself. -/
theorem overwrittenIn_append_of_stop (ls rs : List Token) :
    overwrittenIn (ls ++ t :: rs) = overwrittenIn ls + overwrittenIn rs := by
  induction ls with
  | nil => rw [List.nil_append, overwrittenIn_cons_of_stop h, overwrittenIn, zero_add]
  | cons l ls ih =>
    rw [List.cons_append, overwrittenIn, overwrittenIn, ih, poolItems_append_of_stop h, add_assoc]

/-- Such a token between two parts writes nothing. -/
theorem writtenIn_append_of_stop (ls rs : List Token) :
    writtenIn (ls ++ t :: rs) = writtenIn ls + writtenIn rs := by
  have hoperand : ∀ k ∈ stopKinds, k ∉ operandKinds := by decide
  rw [writtenIn_append, writtenIn_cons_of_not_mem (hoperand _ h)]

end Stop

/-! ### Tokens that tell nothing -/

/-- Without a marker nothing is overwritten. -/
theorem overwrittenIn_of_unmarked {ts : List Token} (h : ∀ t ∈ ts, t.kind ≠ .hopeFear) :
    overwrittenIn ts = 0 := by
  induction ts with
  | nil => rfl
  | cons t ts ih =>
    rw [List.forall_mem_cons] at h
    rw [overwrittenIn, if_neg h.1, ih h.2, add_zero]

/-- No modifier has a marker. -/
theorem choice_unmarked : ∀ k ∈ choiceKinds, k ≠ TokenKind.hopeFear := by decide

/-- There is no marker among the counts of pools. -/
theorem Grammar.Pools.unmarked {ps : List Token} {items : List (Pool × Operand)}
    (h : Pools ps items) : ∀ t ∈ ps, t.kind ≠ .hopeFear := by
  induction h with
  | nil => simp
  | @cons t o rest pool _ _ kind count _ ih =>
    have hname : t.kind ≠ .hopeFear := by
      rw [kind]
      cases pool <;> decide
    have hcount := choice_unmarked _ (List.mem_append_left _ count.kind_mem)
    exact List.forall_mem_cons.mpr ⟨hname, List.forall_mem_cons.mpr ⟨hcount, ih⟩⟩

/-- Operands and modifiers imply nothing. -/
theorem impliedFrom_of_choice {ts : List Token} (h : ∀ t ∈ ts, t.kind ∈ choiceKinds)
    (inPools counted : Bool) : impliedFrom inPools counted ts = 0 := by
  have hstop : ∀ k ∈ modifierKinds, k ∈ stopKinds := by decide
  induction ts generalizing inPools counted with
  | nil => rfl
  | cons t ts ih =>
    rw [List.forall_mem_cons, choiceKinds, List.mem_append] at h
    have hmarks : t.marksTerm inPools = false :=
      h.1.elim Token.marksTerm_of_operand fun hkind => Token.marksTerm_of_stop (hstop _ hkind)
    rw [impliedFrom, Token.implied_of_marksTerm hmarks, ih h.2, add_zero]

/-- Counts of pools are no counts of dice. -/
theorem impliedFrom_pools {ps ms : List Token} {items : List (Pool × Operand)}
    (h : Pools ps items) (hms : ∀ t ∈ ms, t.kind ∈ choiceKinds) (counted : Bool) :
    impliedFrom true counted (ps ++ ms) = 0 := by
  induction h generalizing counted with
  | nil => exact impliedFrom_of_choice hms true counted
  | cons kind count _ ih =>
    rw [List.cons_append, List.cons_append, impliedFrom,
      Token.implied_of_marksTerm (Token.marksTerm_of_pool kind), Token.keepsPools_of_pool kind,
      impliedFrom, Token.implied_of_marksTerm (Token.marksTerm_of_operand count.kind_mem),
      Token.keepsPools_of_operand count.kind_mem, ih, zero_add, zero_add]

/-! ## The balance -/

/-- What is written in the tokens with what they imply is what is held with what was overwritten. -/
def Accounted (ts : List Token) (held : Multiset Operand) : Prop :=
  writtenIn ts + impliedIn ts = held + overwrittenIn ts

namespace Grammar

/-- An operand is what its token writes. -/
theorem IsOperand.written_eq {t : Token} {x : Operand} (h : IsOperand t x) :
    writtenIn [t] = {x} := by
  rw [writtenIn_cons_of_operand h, writtenIn_nil, add_zero]

/-- A modifier holds what its tokens write. -/
theorem IsModifier.written_eq {ts : List Token} {m : Modifier} (h : IsModifier ts m) :
    writtenIn ts = m.operands := by
  have hword : ∀ {t : Token} {word} (rest : List Token), IsWord t word →
      writtenIn (t :: rest) = writtenIn rest := fun rest head =>
    writtenIn_cons_of_not_mem (by rw [head.1]; decide) rest
  have hcheck : ∀ {c : Token} {op} (rest : List Token), IsComparison c op →
      writtenIn (c :: rest) = writtenIn rest := fun rest comparison =>
    writtenIn_cons_of_not_mem (by rw [comparison.1]; decide) rest
  cases h with
  | selection _ head count => rw [hword _ head, count.written_eq, Modifier.operands]
  | explosion head comparison threshold =>
    rw [hword _ head, hcheck _ comparison, threshold.written_eq]
    rfl
  | bareReroll _ head threshold => rw [hword _ head, threshold.written_eq, Modifier.operands]
  | reroll _ head comparison threshold =>
    rw [hword _ head, hcheck _ comparison, threshold.written_eq, Modifier.operands]
  | successCheck comparison threshold =>
    rw [hcheck _ comparison, threshold.written_eq, Modifier.operands]

/-- Modifiers hold all that is written in them. -/
theorem Modifiers.written_eq {ts : List Token} {ms : List Modifier} (h : Modifiers ts ms) :
    writtenIn ts = Modifier.allOperands ms := by
  induction h with
  | nil => rfl
  | cons head _ ih =>
    rw [writtenIn_append, head.written_eq, ih, Modifier.allOperands, Modifier.allOperands,
      List.map_cons, List.sum_cons]
  | bareExplosion head _ _ ih =>
    rw [writtenIn_cons_of_not_mem (by rw [head.1]; decide), ih, Modifier.allOperands,
      Modifier.allOperands, List.map_cons, List.sum_cons]
    exact (zero_add _).symm

/-- Pools hold what their tokens write, those that are overwritten too. -/
theorem Pools.written_eq {ps : List Token} {items : List (Pool × Operand)} (h : Pools ps items) :
    writtenIn ps = items.map (·.2) := by
  induction h with
  | nil => rfl
  | @cons t o rest pool x items kind count _ ih =>
    have hname : t.kind ∉ operandKinds := by
      rw [kind]
      cases pool <;> decide
    rw [writtenIn_cons_of_not_mem hname, writtenIn_cons_of_operand count, ih, List.map_cons,
      ← Multiset.cons_coe, Multiset.singleton_add]

/-- Dice hold the count before them, or an implied one, and what is written behind them. -/
theorem Count.accounted {cs ts : List Token} {d : Token} {x : Operand} (h : Count cs x)
    (hkind : d.kind ∈ [TokenKind.dice, .fate]) (hts : ∀ t ∈ ts, t.kind ∈ choiceKinds) :
    Accounted (cs ++ d :: ts) ({x} + writtenIn ts) := by
  have hmarker : ∀ k ∈ [TokenKind.dice, .fate], k ≠ .hopeFear := by decide
  have hoperand : ∀ k ∈ [TokenKind.dice, .fate], k ∉ operandKinds := by decide
  have hmarks : d.marksTerm false = true := by
    simp only [List.mem_cons, List.not_mem_nil, or_false] at hkind
    rw [Token.marksTerm]
    rcases hkind with hkind | hkind <;> simp [hkind]
  have hdice : ∀ counted, impliedFrom false counted (d :: ts) =
      if counted then 0 else {.number 1} := fun counted => by
    rw [impliedFrom, impliedFrom_of_choice hts, add_zero, Token.implied, if_neg (hmarker _ hkind),
      hmarks]
    cases counted <;> rfl
  have hnone : overwrittenIn (cs ++ d :: ts) = 0 := by
    refine overwrittenIn_of_unmarked (List.forall_mem_append.mpr ⟨fun t ht => ?_,
      List.forall_mem_cons.mpr ⟨hmarker _ hkind, fun t ht => choice_unmarked _ (hts t ht)⟩⟩)
    cases h with
    | implicit => cases ht
    | written operand =>
      cases List.mem_singleton.mp ht
      exact choice_unmarked _ (List.mem_append_left _ operand.kind_mem)
  -- Either the count is written, and the letter implies none, or it is implied.
  have hcount : writtenIn cs + impliedIn (cs ++ d :: ts) = {x} := by
    cases h with
    | implicit => exact (zero_add _).trans (hdice false)
    | @written t _ operand =>
      rw [operand.written_eq, List.singleton_append, impliedIn, impliedFrom,
        Token.implied_of_marksTerm (Token.marksTerm_of_operand operand.kind_mem),
        Token.keepsPools_of_operand operand.kind_mem, operand.operand?_eq, zero_add]
      exact congrArg ({x} + ·) (hdice true)
  rw [Accounted, writtenIn_append, writtenIn_cons_of_not_mem (hoperand _ hkind), add_right_comm,
    hcount, hnone, add_zero]

end Grammar

/-- A roll of Hope/Fear dice holds one count of each pool, and what is written behind these. -/
theorem accounted_hopeFear {t : Token} {ps ms : List Token} {items : List (Pool × Operand)}
    {modifiers : List Modifier} (kind : t.kind = .hopeFear) (pools : Pools ps items)
    (tail : Modifiers ms modifiers) :
    Accounted (t :: (ps ++ ms)) ({countOf .advantage items} + {countOf .disadvantage items} +
      Modifier.allOperands modifiers) := by
  have hitems := poolItems_of_pools pools tail
  have hwritten : writtenIn (t :: (ps ++ ms)) =
      Pool.advantage.counts items + Pool.disadvantage.counts items +
        Modifier.allOperands modifiers := by
    rw [writtenIn_cons_of_not_mem (by rw [kind]; decide), writtenIn_append, pools.written_eq,
      tail.written_eq, Pool.counts_add]
  have himplied : impliedIn (t :: (ps ++ ms)) =
      Pool.advantage.implied items + Pool.disadvantage.implied items := by
    have hkeeps : t.keepsPools false = true := by rw [Token.keepsPools, kind]
    rw [impliedIn, impliedFrom, Token.implied, if_pos kind, hitems, hkeeps,
      impliedFrom_pools pools tail.kind_mem, add_zero]
  have hoverwritten : overwrittenIn (t :: (ps ++ ms)) =
      Pool.advantage.overwritten items + Pool.disadvantage.overwritten items := by
    have hunmarked : ∀ u ∈ ps ++ ms, u.kind ≠ .hopeFear :=
      List.forall_mem_append.mpr
        ⟨pools.unmarked, fun u hu => choice_unmarked _ (tail.kind_mem u hu)⟩
    rw [overwrittenIn, if_pos kind, hitems, overwrittenIn_of_unmarked hunmarked, add_zero]
  -- The pools are balanced one by one, and the modifiers hold what they write.
  calc
    writtenIn (t :: (ps ++ ms)) + impliedIn (t :: (ps ++ ms)) =
        (Pool.advantage.counts items + Pool.advantage.implied items) +
          (Pool.disadvantage.counts items + Pool.disadvantage.implied items) +
            Modifier.allOperands modifiers := by
      rw [hwritten, himplied, add_right_comm, add_add_add_comm]
    _ = ({countOf .advantage items} + Pool.advantage.overwritten items) +
          ({countOf .disadvantage items} + Pool.disadvantage.overwritten items) +
            Modifier.allOperands modifiers := by
      rw [Pool.balance, Pool.balance]
    _ = {countOf .advantage items} + {countOf .disadvantage items} +
          Modifier.allOperands modifiers + overwrittenIn (t :: (ps ++ ms)) := by
      rw [hoverwritten, add_add_add_comm, add_right_comm]

/-- The balance of a dice term, of whichever form. -/
theorem accounted_dice {ts : List Token} {e : Expr} (h : Dice ts e) : Accounted ts e.operands := by
  cases h with
  | hopeFear kind pools tail => exact accounted_hopeFear kind pools tail
  | @sized d s cs ms count sides modifiers head kind size tail =>
    have hts : ∀ t ∈ s :: ms, t.kind ∈ choiceKinds :=
      List.forall_mem_cons.mpr ⟨List.mem_append_left _ size.kind_mem, tail.kind_mem⟩
    have hcount := head.accounted (by rw [kind]; decide) hts
    rwa [writtenIn_cons_of_operand size, tail.written_eq, ← add_assoc] at hcount
  | @fate d cs ms count modifiers head kind tail =>
    have hcount := head.accounted (by rw [kind]; decide) tail.kind_mem
    rwa [tail.written_eq, ← add_zero ({count} : Multiset Operand)] at hcount

namespace Accounted

theorem nil : Accounted [] 0 := rfl

/-- The balance of an operand by itself. -/
theorem operand {t : Token} {x : Operand} (h : IsOperand t x) : Accounted [t] {x} := by
  have hkinds : ∀ u ∈ [t], u.kind ∈ choiceKinds :=
    List.forall_mem_singleton.mpr (List.mem_append_left _ h.kind_mem)
  rw [Accounted, h.written_eq, impliedIn, impliedFrom_of_choice hkinds,
    overwrittenIn_of_unmarked fun u hu => choice_unmarked _ (hkinds u hu)]

/-- On the two sides of a token that is no operand, names no pool and begins no term, each side is
    accounted for by itself. -/
theorem between {t : Token} (ht : t.kind ∈ stopKinds) {ls rs : List Token}
    {left right : Multiset Operand} (hl : Accounted ls left) (hr : Accounted rs right) :
    Accounted (ls ++ t :: rs) (left + right) := by
  have hsplit : impliedIn (ls ++ t :: rs) = impliedIn ls + impliedIn rs :=
    impliedFrom_append_of_stop ht false false ls rs
  calc
    writtenIn (ls ++ t :: rs) + impliedIn (ls ++ t :: rs) =
        (writtenIn ls + impliedIn ls) + (writtenIn rs + impliedIn rs) := by
      rw [writtenIn_append_of_stop ht, hsplit, add_add_add_comm]
    _ = (left + overwrittenIn ls) + (right + overwrittenIn rs) := by rw [hl, hr]
    _ = left + right + overwrittenIn (ls ++ t :: rs) := by
      rw [overwrittenIn_append_of_stop ht, add_add_add_comm]

/-- Such a token in front or behind adds nothing. -/
theorem stop {t : Token} (ht : t.kind ∈ stopKinds) {ts : List Token} {held : Multiset Operand}
    (h : Accounted ts held) : Accounted (t :: ts) held ∧ Accounted (ts ++ [t]) held := by
  have hbefore := between ht .nil h
  have hbehind := between ht h .nil
  rw [zero_add] at hbefore
  rw [add_zero] at hbehind
  exact ⟨hbefore, hbehind⟩

end Accounted

/-- What derives an expression accounts for it: induction on the derivation. -/
theorem accounted_of_derives {phrase : Phrase} {ts : List Token} {e : Expr}
    (h : Derives phrase ts e) : Accounted ts e.operands := by
  induction h with
  | number operand | named operand => exact .operand operand
  | parens opens closes _ ih =>
    exact (Accounted.stop (by rw [opens]; decide) (Accounted.stop (by rw [closes]; decide) ih).2).1
  | dice term => exact accounted_dice term
  | ofFactor _ ih | ofProduct _ ih => exact ih
  | product _ _ head _ ihl ihr | sum _ _ head _ ihl ihr =>
    exact .between (by rw [head.1]; decide) ihl ihr

/-- The balance of a whole sentence, with the target clause if there is one. -/
theorem accounted_of_sentence {ts : List Token} {e : Expr} (h : Sentence ts e) :
    Accounted ts e.operands := by
  cases h with
  | plain only => exact accounted_of_derives only
  | target inner kind comparison threshold =>
    have hcheck := (Accounted.stop (by rw [comparison.1]; decide) (.operand threshold)).1
    exact .between (by rw [kind]; decide) (accounted_of_derives inner) hcheck

/-- No pool has two counts behind one marker. -/
def CountsOnce (ts : List Token) : Prop :=
  ∀ before t after, ts = before ++ t :: after → t.kind = .hopeFear →
    ((poolItems after).map (·.1)).Nodup

/-- Nothing is overwritten just if no pool has two counts. -/
theorem overwrittenIn_eq_zero (ts : List Token) : overwrittenIn ts = 0 ↔ CountsOnce ts := by
  induction ts with
  | nil => exact iff_of_true rfl fun before t after h => by simp at h
  | cons t ts ih =>
    rw [overwrittenIn, add_eq_zero, ih]
    constructor
    · rintro ⟨hfirst, hrest⟩ before u after h hkind
      rcases before with _ | ⟨b, before⟩
      · cases h
        rw [if_pos hkind] at hfirst
        exact (Pool.overwritten_eq_zero _).mp hfirst
      · cases h
        exact hrest before u after rfl hkind
    · intro h
      refine ⟨?_, fun before u after hts hkind => h (t :: before) u after (by rw [hts]; rfl) hkind⟩
      split
      · next hkind => exact (Pool.overwritten_eq_zero _).mpr (h [] t ts rfl hkind)
      · rfl

/-- **Operands.**  Whatever text is read, its tokens tell what of the operands of the expression is
    not written: a 1 for each count of dice and a 0 for each count of a pool that is missing.  The
    others are those that are written, but for counts of pools that are overwritten; so they are all
    that are written just if no pool has two counts behind one marker. -/
theorem ofText_operands {strict : Bool} {limit : Int} {text : String} {e : Expr}
    (h : (Expr.ofText strict limit text).1 = .ok e) :
    ∃ ts, readTokens strict text = .ok ts ∧
      writtenIn ts + impliedIn ts = e.operands + overwrittenIn ts ∧
      (writtenIn ts + impliedIn ts = e.operands ↔ CountsOnce ts) := by
  rw [Expr.ofText] at h
  cases hread : readTokens strict text with
  | error fault =>
    rw [hread] at h
    cases h
  | ok ts =>
    rw [hread] at h
    have hsentence := (((ofTokens_exact hread limit).1 e).mp h).sentence
    have haccounted : writtenIn ts + impliedIn ts = e.operands + overwrittenIn ts := by
      obtain rfl := eq_tokens_of_readTokens hread
      rw [tokens_eq, List.dropLast_concat] at hsentence
      rw [tokens_eq]
      exact (Accounted.stop List.mem_cons_self (accounted_of_sentence hsentence)).2
    refine ⟨ts, rfl, haccounted, ?_⟩
    rw [haccounted, add_eq_left, overwrittenIn_eq_zero]

/-- Of two counts of one pool the first one is lost; and the die behind has no count. -/
theorem ofText_operands_repeated :
    ∃ ts e, (Expr.ofText true 1 "dh a1 a2 d@x + d6kh3").1 = .ok e ∧
      readTokens true "dh a1 a2 d@x + d6kh3" = .ok ts ∧
      writtenIn ts = {.number 1, .number 2, .named "X", .number 6, .number 3} ∧
      impliedIn ts = {.number 1} ∧
      e.operands = {.number 2, .named "X", .number 1, .number 6, .number 3} ∧
      overwrittenIn ts = {.number 1} ∧ ¬ CountsOnce ts := by
  have hread : (Expr.ofText true 1 "dh a1 a2 d@x + d6kh3").1 =
      .ok (.binary .add (.hopeFear (.number 2) (.named "X") [])
        (.dice (.number 1) (.faces (.number 6)) [.selection ⟨.keep, .high, .number 3⟩])) := by
    cbv
  obtain ⟨ts, hts, hbalance, honce⟩ := ofText_operands hread
  have hcut : ts = [⟨.hopeFear, "dh", 0⟩, ⟨.advantage, "a", 2⟩, ⟨.number, "1", 3⟩,
      ⟨.advantage, "a", 4⟩, ⟨.number, "2", 5⟩, ⟨.dice, "d", 6⟩, ⟨.named, "@x", 7⟩,
      ⟨.operator, "+", 9⟩, ⟨.dice, "d", 10⟩, ⟨.number, "6", 11⟩, ⟨.modifier, "kh", 12⟩,
      ⟨.number, "3", 14⟩, ⟨.finish, "", 15⟩] := by
    rw [eq_tokens_of_readTokens hts]
    cbv
  refine ⟨ts, _, hread, hts, ?_, ?_, rfl, ?_, ?_⟩
  · rw [hcut]
    rfl
  · rw [hcut]
    rfl
  · rw [hcut]
    rfl
  · rw [← honce, hbalance, hcut]
    decide

end Tabletop
