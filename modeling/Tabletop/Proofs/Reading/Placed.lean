/-
  Which term of an expression a token belongs to.

  1. **Counting** — the terms that dice are drawn for begin at markers: that of a Hope/Fear roll,
     that of Fate dice, and the letter of dice unless it names a pool.  Whether it does is told by
     the tokens since the last roll.  So the terms of an expression can be counted off its tokens,
     and those in front of a place are counted without regard to what follows (`termsFrom`).
  2. **Place** — where two operands with the letter of dice between them and a selection behind
     stand in what the grammar derives, they are the term of that number, with that selection first;
     or, if the token before names a pool, they end the pools of a Hope/Fear roll with that
     selection.
-/
import Tabletop.Proofs.Reading.Follows
import Tabletop.Proofs.Rolling.Recount

namespace Tabletop

open Grammar

/-! ## Counting -/

/-- Whether the next token may name a pool, `inPools` telling the same of this one. -/
def Token.keepsPools (inPools : Bool) (t : Token) : Bool :=
  match t.kind with
  | .hopeFear => true
  | .advantage | .dice | .number | .named => inPools
  | _ => false

/-- Whether a term begins with the token, or with a count right before it. -/
def Token.marksTerm (inPools : Bool) (t : Token) : Bool :=
  match t.kind with
  | .hopeFear | .fate => true
  | .dice => !inPools
  | _ => false

namespace Token

variable {t : Token} {inPools : Bool}

/-- An operand begins no term. -/
theorem marksTerm_of_operand (h : t.kind ∈ operandKinds) : t.marksTerm inPools = false := by
  simp only [operandKinds, List.mem_cons, List.not_mem_nil, or_false] at h
  rw [marksTerm]
  rcases h with h | h <;> rw [h]

theorem keepsPools_of_operand (h : t.kind ∈ operandKinds) : t.keepsPools inPools = inPools := by
  simp only [operandKinds, List.mem_cons, List.not_mem_nil, or_false] at h
  rw [keepsPools]
  rcases h with h | h <;> rw [h]

/-- The name of a pool begins no term among pools. -/
theorem marksTerm_of_pool {pool : Pool} (kind : t.kind = pool.kind) : t.marksTerm true = false := by
  rw [marksTerm, kind]
  cases pool <;> rfl

theorem keepsPools_of_pool {pool : Pool} (kind : t.kind = pool.kind) :
    t.keepsPools true = true := by
  rw [keepsPools, kind]
  cases pool <;> rfl

end Token

/-- How many terms tokens begin. -/
def termsFrom (inPools : Bool) : List Token → Nat
  | [] => 0
  | t :: ts => (if t.marksTerm inPools then 1 else 0) + termsFrom (t.keepsPools inPools) ts

/-- The kinds after which no pool is named. -/
def resetKinds : List TokenKind :=
  [.operator, .modifier, .comparison, .target, .openParen, .closeParen]

/-- Such a token begins no term, and behind it no pool is named. -/
theorem termsFrom_cons_of_reset {t : Token} (h : t.kind ∈ resetKinds) (inPools : Bool)
    (ts : List Token) : termsFrom inPools (t :: ts) = termsFrom false ts := by
  simp only [resetKinds, List.mem_cons, List.not_mem_nil, or_false] at h
  rw [termsFrom, Token.marksTerm, Token.keepsPools]
  rcases h with h | h | h | h | h | h <;> simp [h]

theorem termsFrom_cons_of_operand {t : Token} (h : t.kind ∈ operandKinds) (inPools : Bool)
    (ts : List Token) : termsFrom inPools (t :: ts) = termsFrom inPools ts := by
  rw [termsFrom, Token.marksTerm_of_operand h, Token.keepsPools_of_operand h,
    if_neg Bool.false_ne_true, Nat.zero_add]

/-- On each side of such a token the terms are counted by themselves. -/
theorem termsFrom_append_of_reset {t : Token} (h : t.kind ∈ resetKinds) (inPools : Bool)
    (ls rs : List Token) :
    termsFrom inPools (ls ++ t :: rs) = termsFrom inPools ls + termsFrom false rs := by
  induction ls generalizing inPools with
  | nil => rw [List.nil_append, termsFrom_cons_of_reset h, termsFrom, Nat.zero_add]
  | cons l ls ih => rw [List.cons_append, termsFrom, termsFrom, ih, Nat.add_assoc]

/-- The kinds of the tokens of modifiers. -/
def choiceKinds : List TokenKind := operandKinds ++ modifierKinds

/-- The tokens of a modifier are operands, comparisons and words of modifiers. -/
theorem Grammar.IsModifier.kind_mem {ts : List Token} {m : Modifier} (h : IsModifier ts m) :
    ∀ t ∈ ts, t.kind ∈ choiceKinds := by
  have hword : ∀ {t : Token} {word}, IsWord t word → t.kind ∈ choiceKinds := fun head => by
    rw [head.1]
    decide
  have hcheck : ∀ {c : Token} {op}, IsComparison c op → c.kind ∈ choiceKinds := fun comparison => by
    rw [comparison.1]
    decide
  have hoperand : ∀ {o : Token} {x}, IsOperand o x → o.kind ∈ choiceKinds := fun operand =>
    List.mem_append_left _ operand.kind_mem
  cases h with
  | selection _ head count => simp [hword head, hoperand count]
  | explosion head comparison threshold =>
    simp [hword head, hcheck comparison, hoperand threshold]
  | bareReroll _ head threshold => simp [hword head, hoperand threshold]
  | reroll _ head comparison threshold =>
    simp [hword head, hcheck comparison, hoperand threshold]
  | successCheck comparison threshold => simp [hcheck comparison, hoperand threshold]

theorem Grammar.Modifiers.kind_mem {ts : List Token} {ms : List Modifier} (h : Modifiers ts ms) :
    ∀ t ∈ ts, t.kind ∈ choiceKinds := by
  induction h with
  | nil => simp
  | cons head _ ih => exact List.forall_mem_append.mpr ⟨head.kind_mem, ih⟩
  | bareExplosion head _ _ ih => exact List.forall_mem_cons.mpr ⟨by rw [head.1]; decide, ih⟩

/-- Modifiers begin no term. -/
theorem termsFrom_modifiers {ts : List Token} {ms : List Modifier} (h : Modifiers ts ms)
    (inPools : Bool) : termsFrom inPools ts = 0 := by
  have hkinds := h.kind_mem
  clear h
  induction ts generalizing inPools with
  | nil => rfl
  | cons t ts ih =>
    rw [List.forall_mem_cons, choiceKinds, List.mem_append] at hkinds
    rcases hkinds.1 with hoperand | hreset
    · rw [termsFrom_cons_of_operand hoperand, ih inPools hkinds.2]
    · have hsub : ∀ k ∈ modifierKinds, k ∈ resetKinds := by decide
      rw [termsFrom_cons_of_reset (hsub _ hreset), ih false hkinds.2]

/-- Pools begin no term, and go on. -/
theorem termsFrom_pools {ts : List Token} {items : List (Pool × Operand)} (h : Pools ts items)
    (more : List Token) : termsFrom true (ts ++ more) = termsFrom true more := by
  induction h with
  | nil => rfl
  | cons kind count _ ih =>
    rw [List.cons_append, List.cons_append, termsFrom, Token.marksTerm_of_pool kind,
      Token.keepsPools_of_pool kind, if_neg Bool.false_ne_true,
      termsFrom_cons_of_operand count.kind_mem, ih, Nat.zero_add]

/-- The number of dice before a term is no term. -/
theorem termsFrom_count {cs : List Token} {x : Operand} (h : Count cs x) (more : List Token) :
    termsFrom false (cs ++ more) = termsFrom false more := by
  cases h with
  | implicit => rfl
  | written operand => exact termsFrom_cons_of_operand operand.kind_mem false more

/-- A dice term is one term. -/
theorem termsFrom_dice {ts : List Token} {e : Expr} (h : Dice ts e) :
    termsFrom false ts = 1 ∧ e.terms = [e] := by
  cases h with
  | @hopeFear t ps ms _ _ kind pools tail =>
    have hmark : t.marksTerm false = true := by rw [Token.marksTerm, kind]
    have hkeep : t.keepsPools false = true := by rw [Token.keepsPools, kind]
    rw [termsFrom, hmark, hkeep, termsFrom_pools pools, termsFrom_modifiers tail]
    exact ⟨rfl, rfl⟩
  | @sized d s cs ms _ _ _ head kind size tail =>
    have hmark : d.marksTerm false = true := by
      rw [Token.marksTerm, kind]
      rfl
    rw [termsFrom_count head, termsFrom, hmark, termsFrom_cons_of_operand size.kind_mem,
      termsFrom_modifiers tail]
    exact ⟨rfl, rfl⟩
  | @fate d cs ms _ _ head kind tail =>
    have hmark : d.marksTerm false = true := by rw [Token.marksTerm, kind]
    rw [termsFrom_count head, termsFrom, hmark, termsFrom_modifiers tail]
    exact ⟨rfl, rfl⟩

/-- The terms of an expression are counted off its tokens. -/
theorem termsFrom_of_derives {phrase : Phrase} {ts : List Token} {e : Expr}
    (h : Derives phrase ts e) : termsFrom false ts = e.terms.length := by
  induction h with
  | number operand | named operand => exact termsFrom_cons_of_operand operand.kind_mem false []
  | parens opens closes _ ih =>
    rw [termsFrom_cons_of_reset (by rw [opens]; decide),
      termsFrom_append_of_reset (by rw [closes]; decide), ih]
    rfl
  | dice term =>
    obtain ⟨hone, hterms⟩ := termsFrom_dice term
    rw [hone, hterms]
    rfl
  | ofFactor _ ih | ofProduct _ ih => exact ih
  | product _ _ head _ ihl ihr | sum _ _ head _ ihl ihr =>
    rw [termsFrom_append_of_reset (by rw [head.1]; decide), ihl, ihr, Expr.terms,
      List.length_append]

/-- Tokens in front begin no more terms than they do with others behind. -/
theorem termsFrom_le_append (inPools : Bool) (ls rs : List Token) :
    termsFrom inPools ls ≤ termsFrom inPools (ls ++ rs) := by
  induction ls generalizing inPools with
  | nil => exact Nat.zero_le _
  | cons l ls ih =>
    rw [List.cons_append, termsFrom, termsFrom]
    exact Nat.add_le_add_left (ih _) _

/-! ## Selections -/

namespace Grammar

theorem IsOperand.unique {t : Token} {x y : Operand} (hx : IsOperand t x) (hy : IsOperand t y) :
    x = y := by
  cases hx with
  | number kind =>
    cases hy with
    | number _ => rfl
    | named kind' => cases kind.symm.trans kind'
  | named kind =>
    cases hy with
    | number kind' => cases kind.symm.trans kind'
    | named _ => rfl

/-- No two selections have one word, and none has that of another modifier. -/
theorem selectionWords_apart : ∀ e ∈ selectionWords,
    (∀ e' ∈ selectionWords, e.1 = e'.1 → e = e') ∧ e.1 ∉ "!" :: rerollWords.map (·.1) := by
  decide

/-- Modifiers that begin with the word of a selection begin with that selection. -/
theorem Modifiers.selection {w o : Token} {ts : List Token} {ms : List Modifier}
    (h : Modifiers (w :: o :: ts) ms) {word : String} {action : SelectionAction} {extreme : Extreme}
    (listed : (word, action, extreme) ∈ selectionWords) (head : IsWord w word) {x : Operand}
    (count : IsOperand o x) : ∃ rest, ms = .selection ⟨action, extreme, x⟩ :: rest := by
  obtain ⟨hsame, hother⟩ := selectionWords_apart _ listed
  have hword : ∀ {word'}, IsWord w word' → word = word' := fun head' =>
    head.2.symm.trans head'.2
  generalize hts : w :: o :: ts = all at h
  cases h with
  | nil => cases hts
  | bareExplosion head' _ _ =>
    cases hts
    exact absurd (hword head' ▸ List.mem_cons_self) hother
  | @cons _ rest _ tailMods first tail =>
    cases first with
    | selection listed' head' count' =>
      cases hts
      cases hsame _ listed' (hword head')
      rw [count.unique count']
      exact ⟨_, rfl⟩
    | explosion head' _ _ =>
      cases hts
      exact absurd (hword head' ▸ List.mem_cons_self) hother
    | bareReroll listed' head' _ | reroll listed' head' _ _ =>
      cases hts
      refine absurd (List.mem_cons_of_mem _ (List.mem_map.mpr ⟨_, listed', ?_⟩)) hother
      exact (hword head').symm
    | successCheck comparison _ =>
      cases hts
      cases head.1.symm.trans comparison.1

end Grammar

/-! ## Place -/

/-- A number, the letter of dice, a number, and a selection with its count. -/
inductive DiceRun : List Token → Operand → Operand → Selection → Prop where
  | mk {n d s w o : Token} {word count sides action extreme x} (head : IsOperand n count)
      (kind : d.kind = .dice) (size : IsOperand s sides)
      (listed : (word, action, extreme) ∈ selectionWords) (choice : IsWord w word)
      (chosen : IsOperand o x) : DiceRun [n, d, s, w, o] count sides ⟨action, extreme, x⟩

/-- What such tokens are among the terms of an expression, if they stand behind others: dice of that
    count and size, or the end of the pools of a Hope/Fear roll, which take the count and the size;
    and the selection is the first modifier. -/
inductive Placed (before : List Token) (count sides : Operand) (selection : Selection)
    (terms : List Expr) : Prop where
  | alone {ms : List Modifier} (free : ∀ t ∈ before.getLast?, t.kind ∉ poolKinds)
      (found : terms[termsFrom false before]? =
        some (.dice count (.faces sides) (.selection selection :: ms)))
  | pooled {t : Token} {index : Nat} {advantage : Operand} {ms : List Modifier}
      (last : before.getLast? = some t) (names : t.kind ∈ poolKinds)
      (taken : t.kind = .advantage → advantage = count)
      (place : termsFrom false before = index + 1)
      (found : terms[index]? = some (.hopeFear advantage sides (.selection selection :: ms)))

/-- Wherever the run stands in the tokens, it is placed among the terms. -/
def Places (run : List Token) (count sides : Operand) (selection : Selection) (ts : List Token)
    (terms : List Expr) : Prop :=
  ∀ before after, ts = before ++ (run ++ after) → Placed before count sides selection terms

/-- The kinds that stand between terms and around them. -/
def borderKinds : List TokenKind := [.operator, .target, .openParen, .closeParen]

/-- A list that goes on over an element has the run on one side of it. -/
theorem run_beside {α : Type} {t : α} {run ls rs before after : List α} (hne : run ≠ [])
    (ht : t ∉ run) (h : ls ++ t :: rs = before ++ (run ++ after)) :
    (∃ later, ls = before ++ (run ++ later)) ∨
      ∃ earlier, before = ls ++ t :: earlier ∧ rs = earlier ++ (run ++ after) := by
  rcases List.append_eq_append_iff.mp h with ⟨earlier, rfl, hrest⟩ | ⟨later, rfl, hrest⟩
  · cases earlier with
    | nil =>
      obtain ⟨u, us, rfl⟩ := List.exists_cons_of_ne_nil hne
      cases hrest
      exact absurd List.mem_cons_self ht
    | cons u earlier =>
      cases hrest
      exact Or.inr ⟨earlier, rfl, rfl⟩
  · rcases List.append_eq_append_iff.mp hrest with ⟨more, rfl, -⟩ | ⟨more, rfl, hmore⟩
    · exact Or.inl ⟨more, rfl⟩
    · cases more with
      | nil => exact Or.inl ⟨[], by rw [List.append_nil, List.append_nil]⟩
      | cons u more =>
        cases hmore
        exact absurd (List.mem_append_right later List.mem_cons_self) ht

namespace Placed

variable {before : List Token} {count sides : Operand} {selection : Selection} {terms : List Expr}

/-- Terms that come later change nothing. -/
theorem append_right (h : Placed before count sides selection terms) (more : List Expr) :
    Placed before count sides selection (terms ++ more) := by
  have hkeep : ∀ {i : Nat} {e : Expr}, terms[i]? = some e → (terms ++ more)[i]? = some e :=
    fun found => by rw [List.getElem?_append_left (List.getElem?_eq_some_iff.mp found).1, found]
  cases h with
  | alone free found => exact .alone free (hkeep found)
  | pooled last names taken place found => exact .pooled last names taken place (hkeep found)

/-- Terms that come first move it by their number. -/
theorem append_left (h : Placed before count sides selection terms) {t : Token}
    (ht : t.kind ∈ borderKinds) {ls : List Token} {more : List Expr}
    (hcount : termsFrom false ls = more.length) :
    Placed (ls ++ t :: before) count sides selection (more ++ terms) := by
  have hreset : ∀ k ∈ borderKinds, k ∈ resetKinds := by decide
  have hpool : ∀ k ∈ borderKinds, k ∉ poolKinds := by decide
  have hplace : termsFrom false (ls ++ t :: before) = more.length + termsFrom false before := by
    rw [termsFrom_append_of_reset (hreset _ ht), hcount]
  have hfound : ∀ i, (more ++ terms)[more.length + i]? = terms[i]? := fun i => by
    rw [List.getElem?_append_right (Nat.le_add_right _ _), Nat.add_sub_cancel_left]
  have hlast : (ls ++ t :: before).getLast? = before.getLast?.or (some t) := by
    rw [List.append_cons, List.getLast?_append, List.getLast?_concat]
  cases h with
  | alone free found =>
    refine .alone (fun u hu => ?_) (by rw [hplace, hfound, found])
    rw [hlast] at hu
    cases hbefore : before.getLast? with
    | none =>
      rw [hbefore] at hu
      cases hu
      exact hpool _ ht
    | some v =>
      rw [hbefore] at hu
      cases hu
      exact free _ hbefore
  | @pooled u index _ _ last names taken place found =>
    refine .pooled (by rw [hlast, last, Option.some_or]) names taken
      (by rw [hplace, place, Nat.add_assoc]) (by rw [hfound, found])

end Placed

namespace Places

variable {run : List Token} {count sides : Operand} {selection : Selection}

/-- The run is no part of tokens that are fewer. -/
theorem of_short (hrun : DiceRun run count sides selection) {ts : List Token}
    (h : ts.length < 5) (terms : List Expr) : Places run count sides selection ts terms := by
  rintro before after rfl
  cases hrun
  simp only [List.length_append, List.length_cons] at h
  omega

/-- Between two pieces is a token of a border, and no run goes over it. -/
theorem between (hrun : DiceRun run count sides selection) {t : Token} (ht : t.kind ∈ borderKinds)
    {ls rs : List Token} {left right : List Expr} (hcount : termsFrom false ls = left.length)
    (hleft : Places run count sides selection ls left)
    (hright : Places run count sides selection rs right) :
    Places run count sides selection (ls ++ t :: rs) (left ++ right) := by
  have hkinds : ∀ u ∈ run, u.kind ∉ borderKinds := by
    cases hrun with
    | mk head kind size _ choice chosen =>
      have hoperand : ∀ k ∈ operandKinds, k ∉ borderKinds := by decide
      simp only [List.forall_mem_cons]
      refine ⟨hoperand _ head.kind_mem, by rw [kind]; decide, hoperand _ size.kind_mem,
        by rw [choice.1]; decide, hoperand _ chosen.kind_mem, by simp⟩
  have hne : run ≠ [] := by
    cases hrun
    exact List.cons_ne_nil _ _
  intro before after h
  rcases run_beside hne (fun hmem => hkinds t hmem ht) h with ⟨later, hls⟩ | ⟨earlier, rfl, hrs⟩
  · exact (hleft before later hls).append_right right
  · exact (hright earlier after hrs).append_left ht hcount

/-- The dice that a letter of dice belongs to, if it is none of a pool, are those of the run around
    it. -/
theorem sized (hrun : DiceRun run count sides selection) {d s : Token} {cs ms : List Token}
    {x y : Operand} {modifiers : List Modifier} (head : Count cs x)
    (size : IsOperand s y) (tail : Modifiers ms modifiers) :
    Places run count sides selection (cs ++ d :: s :: ms) [.dice x (.faces y) modifiers] := by
  intro before after h
  cases hrun with
  | @mk n d' s' w o _ _ _ _ _ _ head' kind' size' listed choice chosen =>
    have hcounts : d' ∉ cs := fun hmem => by
      cases head with
      | implicit => cases hmem
      | written operand =>
        cases List.mem_singleton.mp hmem
        exact absurd (kind' ▸ operand.kind_mem) (by decide)
    have hbehind : d' ∉ s :: ms := fun hmem => by
      rcases List.mem_cons.mp hmem with rfl | hmem
      · exact absurd (kind' ▸ size.kind_mem) (by decide)
      · exact absurd (kind' ▸ tail.kind_mem _ hmem) (by decide)
    -- So the two letters of dice are one, and all else falls into place around it.
    have hsplit : cs ++ d :: (s :: ms) = (before ++ [n]) ++ d' :: (s' :: w :: o :: after) := by
      rw [h, List.append_assoc]
      rfl
    obtain ⟨rfl, rfl, hrest⟩ := (List.append_cons_inj_of_notMem hcounts hbehind).mp hsplit
    cases hrest
    obtain ⟨rest, rfl⟩ := tail.selection listed choice chosen
    generalize hcs : before ++ [n] = cs at head
    cases head with
    | implicit => exact absurd hcs (by simp)
    | written operand =>
      cases before with
      | nil =>
        cases hcs
        cases operand.unique head'
        cases size.unique size'
        exact .alone nofun rfl
      | cons b before => exact absurd (List.cons.inj hcs).2 (by simp)

/-- A run with its letter of dice among the tokens of pools ends them, and takes the last two
    counts; what is before it ends with the token that names the first one of them: induction on the
    pools. -/
theorem end_of_pools {n d s w o : Token} {word : String} (head : IsOperand n count)
    (kind : d.kind = .dice) (size : IsOperand s sides) (choice : IsWord w word) {ps ms : List Token}
    {items : List (Pool × Operand)} {modifiers : List Modifier} (pools : Pools ps items)
    (tail : Modifiers ms modifiers) {before after : List Token}
    (h : ps ++ ms = before ++ ([n, d, s, w, o] ++ after)) :
    ms = w :: o :: after ∧ ∃ t pool earlier, before.getLast? = some t ∧ t.kind = Pool.kind pool ∧
      items = earlier ++ [(pool, count), (.disadvantage, sides)] := by
  have hdice : d ∉ ms := fun hmem => absurd (kind ▸ tail.kind_mem d hmem) (by decide)
  have hpool : ∀ {t : Token} {pool : Pool}, t.kind = pool.kind →
      t.kind ∉ TokenKind.modifier :: operandKinds := fun {_ pool} hkind => by
    rw [hkind]
    cases pool <;> decide
  induction pools generalizing before with
  | nil =>
    rw [List.nil_append] at h
    exact absurd (by simp [h]) hdice
  | @cons t' o' rest pool x items kind' count' pools' ih =>
    rcases before with _ | ⟨b, _ | ⟨b', before⟩⟩
    · -- A run begins with an operand, not with the name of a pool.
      simp only [List.cons_append, List.nil_append, List.cons.injEq] at h
      obtain ⟨rfl, -⟩ := h
      exact absurd (List.mem_cons_of_mem _ head.kind_mem) (hpool kind')
    · -- It begins with the count of this pool, so its letter of dice names the last one.
      simp only [List.cons_append, List.nil_append, List.cons.injEq] at h
      obtain ⟨rfl, rfl, hrest⟩ := h
      cases head.unique count'
      cases pools' with
      | nil =>
        rw [List.nil_append] at hrest
        exact absurd (by simp [hrest]) hdice
      | @cons _ _ _ pool' _ _ kind'' count'' pools'' =>
        simp only [List.cons_append, List.cons.injEq] at hrest
        obtain ⟨rfl, rfl, hrest⟩ := hrest
        cases size.unique count''
        have hpool' : pool' = .disadvantage := by
          cases pool' with
          | advantage => cases kind.symm.trans kind''
          | disadvantage => rfl
        cases pools'' with
        | nil => exact ⟨hrest, t', pool, [], rfl, kind', by rw [hpool']; rfl⟩
        | @cons u _ _ _ _ _ hu _ _ =>
          simp only [List.cons_append, List.cons.injEq] at hrest
          refine absurd ?_ (hpool hu)
          rw [hrest.1, choice.1]
          exact List.mem_cons_self
    · -- It begins further on.
      simp only [List.cons_append, List.cons.injEq] at h
      obtain ⟨rfl, rfl, hrest⟩ := h
      obtain ⟨hms, t, pool', earlier, hlast, hkind, rfl⟩ := ih hrest
      refine ⟨hms, t, pool', (pool, x) :: earlier, ?_, hkind, rfl⟩
      rw [List.getLast?_cons, List.getLast?_cons, hlast]
      rfl

/-- Behind a marker of Hope/Fear dice a run ends the pools. -/
theorem hopeFear (hrun : DiceRun run count sides selection) {t : Token} {ps ms : List Token}
    {items : List (Pool × Operand)} {modifiers : List Modifier} (kind : t.kind = .hopeFear)
    (pools : Pools ps items) (tail : Modifiers ms modifiers) :
    Places run count sides selection (t :: (ps ++ ms))
      [.hopeFear (countOf .advantage items) (countOf .disadvantage items) modifiers] := by
  intro before after h
  cases hrun with
  | @mk n d s w o _ _ _ _ _ _ head kind' size listed choice chosen =>
    cases before with
    | nil =>
      simp only [List.cons_append, List.nil_append, List.cons.injEq] at h
      obtain ⟨rfl, -⟩ := h
      exact absurd (kind ▸ head.kind_mem) (by decide)
    | cons b before =>
      rw [List.cons_append, List.cons.injEq] at h
      obtain ⟨rfl, hrest⟩ := h
      obtain ⟨rfl, u, pool, earlier, hlast, hpool, rfl⟩ :=
        end_of_pools head kind' size choice pools tail hrest
      obtain ⟨rest, rfl⟩ := tail.selection listed choice chosen
      -- Among the counts of pools no term begins, so it is the first one.
      have hnone : termsFrom true before = 0 := by
        have hle := termsFrom_le_append true before ([n, d, s, w, o] ++ after)
        rw [← hrest, termsFrom_pools pools, termsFrom_modifiers tail] at hle
        exact Nat.le_zero.mp hle
      have hplace : termsFrom false (t :: before) = 0 + 1 := by
        rw [termsFrom, Token.marksTerm, Token.keepsPools, kind]
        exact congrArg (1 + ·) hnone
      have htaken : u.kind = .advantage →
          countOf .advantage (earlier ++ [(pool, count), (.disadvantage, sides)]) = count := by
        intro hu
        cases pool with
        | advantage =>
          rw [countOf, List.reverse_append]
          rfl
        | disadvantage => cases hu.symm.trans hpool
      have hsides : countOf .disadvantage (earlier ++ [(pool, count), (.disadvantage, sides)]) =
          sides := by
        rw [countOf, List.reverse_append]
        rfl
      have hnames : u.kind ∈ poolKinds := by
        rw [hpool]
        cases pool <;> decide
      have hend : (t :: before).getLast? = some u := by
        rw [List.getLast?_cons, hlast]
        rfl
      rw [hsides]
      exact .pooled hend hnames htaken hplace rfl

/-- A run that stands in a dice term is placed in it. -/
theorem dice (hrun : DiceRun run count sides selection) {ts : List Token} {e : Expr}
    (h : Dice ts e) : Places run count sides selection ts e.terms := by
  rw [(termsFrom_dice h).2]
  cases h with
  | hopeFear kind pools tail => exact hopeFear hrun kind pools tail
  | sized head _ size tail => exact sized hrun head size tail
  | @fate f cs ms _ _ head kind tail =>
    -- Here is no letter of dice.
    intro before after h
    cases hrun with
    | @mk n d _ _ _ _ _ _ _ _ _ _ kind' _ _ _ _ =>
      have hmem : d ∈ cs ++ f :: ms := by simp [h]
      simp only [List.mem_append, List.mem_cons] at hmem
      rcases hmem with hmem | rfl | hmem
      · cases head with
        | implicit => cases hmem
        | written operand =>
          cases List.mem_singleton.mp hmem
          exact absurd (kind' ▸ operand.kind_mem) (by decide)
      · cases kind.symm.trans kind'
      · exact absurd (kind' ▸ tail.kind_mem _ hmem) (by decide)

end Places

/-- A run is placed among the terms of what is derived with it: induction on the derivation. -/
theorem Grammar.Derives.places {run : List Token} {count sides : Operand} {selection : Selection}
    (hrun : DiceRun run count sides selection) {phrase : Phrase} {ts : List Token} {e : Expr}
    (h : Derives phrase ts e) : Places run count sides selection ts e.terms := by
  have hnil : Places run count sides selection [] [] := .of_short hrun (by simp) []
  induction h with
  | number _ | named _ => exact .of_short hrun (by simp) _
  | parens opens closes inner ih =>
    have hclose := Places.between hrun (by rw [closes]; decide) (termsFrom_of_derives inner) ih hnil
    rw [List.append_nil] at hclose
    exact .between hrun (by rw [opens]; decide) rfl hnil hclose
  | dice term => exact .dice hrun term
  | ofFactor _ ih | ofProduct _ ih => exact ih
  | product left _ head _ ihl ihr | sum left _ head _ ihl ihr =>
    exact .between hrun (by rw [head.1]; decide) (termsFrom_of_derives left) ihl ihr

/-- A run is placed among the terms of a sentence that it stands in. -/
theorem Grammar.Sentence.places {run : List Token} {count sides : Operand} {selection : Selection}
    (hrun : DiceRun run count sides selection) {ts : List Token} {e : Expr} (h : Sentence ts e) :
    Places run count sides selection ts e.terms := by
  cases h with
  | plain only => exact only.places hrun
  | @target t c o _ _ _ _ inner kind _ _ =>
    have hcheck : Places run count sides selection [c, o] [] := .of_short hrun (by simp) []
    have htarget := Places.between hrun (by rw [kind]; decide) (termsFrom_of_derives inner)
      (inner.places hrun) hcheck
    rwa [List.append_nil] at htarget

end Tabletop
