/-
  An expression is rolled term by term.

  Nothing but terms draws dice, and they do so from left to right.  So the dice that an expression
  left fall into blocks, one for each term, and each block is what a roll of its term left.  The
  calls fall into shares in the same way; and where the expression fails, there are shares of the
  terms that were begun.
-/
import Tabletop.Proofs.Rolling.Calls
import Tabletop.Proofs.Rolling.Recount

namespace Tabletop

/-- The modifiers that take effect in a term: those of a Hope/Fear roll do not. -/
def Expr.modifiers : Expr → List Modifier
  | .dice _ _ modifiers => modifiers
  | _ => []

/-- A term is a dice term or a Hope/Fear roll. -/
theorem term_of_mem_terms {expr term : Expr} (h : term ∈ expr.terms) :
    (∃ count sides modifiers, term = .dice count sides modifiers) ∨
      ∃ advantage disadvantage modifiers, term = .hopeFear advantage disadvantage modifiers := by
  induction expr with
  | dice count sides modifiers =>
    obtain rfl := List.mem_singleton.mp h
    exact Or.inl ⟨_, _, _, rfl⟩
  | hopeFear advantage disadvantage modifiers =>
    obtain rfl := List.mem_singleton.mp h
    exact Or.inr ⟨_, _, _, rfl⟩
  | binary op left right ihl ihr =>
    rcases List.mem_append.mp h with h | h
    · exact ihl h
    · exact ihr h
  | target inner comparison threshold ih => exact ih h
  | number n => cases h
  | named name => cases h
  | missing => cases h

/-- What holds of all members of the parts holds of all members of the whole. -/
theorem forall_mem_flatten {α β : Type} {R : α → List β → Prop} {p : β → Prop}
    (hpart : ∀ a part, R a part → ∀ b ∈ part, p b) {as : List α} {parts : List (List β)}
    (h : List.Forall₂ R as parts) : ∀ b ∈ parts.flatten, p b := by
  induction h with
  | nil => simp
  | cons head _ ih =>
    rw [List.flatten_cons, List.forall_mem_append]
    exact ⟨hpart _ _ head, ih⟩

namespace Rolling

variable {setup : Setup}

/-! ## Dice -/

/-- The dice are those that a roll of the term left. -/
def LeftBy (setup : Setup) (term : Expr) (block : List Die) : Prop :=
  ∃ (room : Nat) (before after : Ledger) (tally : Tally),
    term.roll setup room before = .ok tally after ∧ tally.dice = block

/-- The tally is one that the term was rolled to. -/
def RolledTo (setup : Setup) (term : Expr) (tally : Tally) : Prop :=
  ∃ (room : Nat) (before after : Ledger), term.roll setup room before = .ok tally after

/-- The tally is put together from tallies of the terms: its dice are theirs in a row, and it has
    the last of their pairs. -/
def Tallied (setup : Setup) (terms : List Expr) (tally : Tally) : Prop :=
  ∃ tallies : List Tally, List.Forall₂ (RolledTo setup) terms tallies ∧
    tally.dice = tallies.flatMap (·.dice) ∧ tally.pair = (tallies.filterMap (·.pair)).getLast?

namespace Tallied

/-- A number has no terms. -/
theorem number (n : Int) : Tallied setup [] { value := n } := ⟨[], .nil, rfl, rfl⟩

/-- A single term has one tally, its own. -/
theorem single {term : Expr} {room : Nat} {before after : Ledger} {tally : Tally}
    (h : term.roll setup room before = .ok tally after) : Tallied setup [term] tally := by
  refine ⟨[tally], .cons ⟨room, before, after, h⟩ .nil, by simp, ?_⟩
  cases hpair : tally.pair <;> simp [hpair]

/-- The tallies of two sides come one behind the other. -/
theorem combine {left right : List Expr} {l r : Tally} (hl : Tallied setup left l)
    (hr : Tallied setup right r) (value : Int) :
    Tallied setup (left ++ right) (l.combine value r) := by
  obtain ⟨ls, hleft, hldice, hlpair⟩ := hl
  obtain ⟨rs, hright, hrdice, hrpair⟩ := hr
  refine ⟨ls ++ rs, List.rel_append hleft hright, ?_, ?_⟩
  · rw [List.flatMap_append, ← hldice, ← hrdice]
    rfl
  · rw [List.filterMap_append, List.getLast?_append, ← hlpair, ← hrpair]
    rfl

end Tallied

/-- The tally of an expression is put together from those of its terms.  Induction on the
    expression. -/
theorem tallies_of_roll {expr : Expr} :
    ∀ {room : Nat} {before after : Ledger} {tally : Tally},
      expr.roll setup room before = .ok tally after → Tallied setup expr.terms tally := by
  induction expr with
  | number n =>
    intro room before after tally h
    cases h
    exact .number n
  | named name =>
    intro room before after tally h
    obtain ⟨n, mid, -, hrest⟩ := Run.bind_eq_ok.mp h
    cases hrest
    exact .number n
  | dice count sides modifiers => exact .single
  | hopeFear advantage disadvantage modifiers => exact .single
  | missing =>
    intro room before after tally h
    cases h
  | binary op left right ihl ihr =>
    intro room before after tally h
    obtain ⟨less, l, mid, r, value, hl, hr, -, rfl⟩ := of_roll_binary h
    exact (ihl hl).combine (ihr hr) value
  | target inner comparison threshold ih =>
    intro room before after tally h
    cases room with
    | zero => cases h
    | succ room =>
      obtain ⟨t, mid, ht, hrest⟩ := Run.bind_eq_ok.mp h
      obtain ⟨n, last, -, hvalue⟩ := Run.bind_eq_ok.mp hrest
      cases hvalue
      obtain ⟨tallies, hrolled, hdice, hpair⟩ := ih ht
      exact ⟨tallies, hrolled, hdice, hpair⟩

/-- The dice of the tallies are the blocks that the terms left. -/
theorem leftBy_of_rolledTo {terms : List Expr} {tallies : List Tally}
    (h : List.Forall₂ (RolledTo setup) terms tallies) :
    List.Forall₂ (LeftBy setup) terms (tallies.map (·.dice)) := by
  rw [List.forall₂_map_right_iff]
  refine h.imp ?_
  rintro term tally ⟨room, before, after, hterm⟩
  exact ⟨room, before, after, tally, hterm, rfl⟩

/-- The block of dice that each term left. -/
theorem blocks_of_roll {expr : Expr} {room : Nat} {before after : Ledger} {tally : Tally}
    (h : expr.roll setup room before = .ok tally after) :
    ∃ blocks, blocks.flatten = tally.dice ∧ List.Forall₂ (LeftBy setup) expr.terms blocks := by
  obtain ⟨tallies, hrolled, hdice, -⟩ := tallies_of_roll h
  exact ⟨tallies.map (·.dice), by rw [hdice, List.flatMap_def], leftBy_of_rolledTo hrolled⟩

/-! ## Calls -/

/-- The calls are those of a roll of the term. -/
def AskedBy (setup : Setup) (term : Expr) (calls : List Nat) : Prop :=
  ∃ (room : Nat) (before : Ledger), Calls setup.source before (term.roll setup room before) calls

/-- The calls of a run fall into shares, one for each of the terms that were begun; these are the
    first ones of the terms, and all of them if the run went well. -/
def Shared (source : Source) (p : Expr → List Nat → Prop) (terms : List Expr) (before : Ledger)
    (result : EStateM.Result Fault Ledger Tally) : Prop :=
  ∃ begun shares, begun <+: terms ∧ List.Forall₂ p begun shares ∧
    Calls source before result shares.flatten ∧
      ∀ tally after, result = .ok tally after → begun = terms

namespace Shared

variable {source : Source} {p : Expr → List Nat → Prop} {terms more : List Expr} {before : Ledger}
  {result : EStateM.Result Fault Ledger Tally}

/-- Where nothing is asked for there need be no terms. -/
theorem nil (h : Calls source before result []) : Shared source p [] before result :=
  ⟨[], [], List.prefix_refl _, .nil, h, fun _ _ _ => rfl⟩

/-- A single term has all calls as its share. -/
theorem single {term : Expr} (h : ∃ calls, Calls source before result calls ∧ p term calls) :
    Shared source p [term] before result := by
  obtain ⟨calls, hcalls, hp⟩ := h
  refine ⟨[term], [calls], List.prefix_rfl, .cons hp .nil, ?_, fun _ _ _ => rfl⟩
  simpa using hcalls

/-- A run that fails at once begins no term. -/
theorem refused {hazard : Hazard} :
    Shared source p terms before (.error (.expr (.hazard hazard)) before) :=
  ⟨[], [], List.nil_prefix, .nil, .error (by simp) (by simp), fun _ _ => nofun⟩

/-- Of two runs in a row the shares of the second come behind those of the first, and if the first
    fails there are none of the second. -/
theorem bind {roll : Rolling Tally} {next : Tally → Rolling Tally}
    (h : Shared source p terms before (roll before))
    (hnext : ∀ tally mid, Shared source p more mid (next tally mid)) :
    Shared source p (terms ++ more) before ((roll >>= next) before) := by
  obtain ⟨begun, shares, hbegun, hshares, hcalls, hall⟩ := h
  cases hroll : roll before with
  | error fault after =>
    rw [hroll] at hcalls
    rw [Run.bind_of_error hroll]
    have hprefix := hbegun.trans (List.prefix_append terms more)
    exact ⟨begun, shares, hprefix, hshares, hcalls, fun _ _ => nofun⟩
  | ok tally mid =>
    obtain rfl := hall tally mid hroll
    obtain ⟨begun', shares', hbegun', hshares', hcalls', hall'⟩ := hnext tally mid
    rw [hroll] at hcalls
    rw [Run.bind_of_ok hroll]
    refine ⟨begun ++ begun', shares ++ shares', (List.prefix_append_right_inj _).mpr hbegun',
      List.rel_append hshares hshares', ?_, fun t after hok => ?_⟩
    · rw [List.flatten_append]
      exact hcalls.append hcalls'
    · rw [hall' t after hok]

end Shared

/-- What is made of the values of two sides asks for nothing. -/
theorem apply_still (source : Source) (op : Operator) (l r : Tally) :
    Still source (match op.apply l.value r.value with
      | .ok value => pure (l.combine value r)
      | .error hazard => refuse hazard) := by
  cases op.apply l.value r.value with
  | ok value => exact Asks.pure trivial
  | error hazard => exact Asks.refuse trivial

/-- A check of a value asks for nothing. -/
theorem check_still (tally : Tally) (comparison : Comparison) (threshold : Operand) :
    Still setup.source (resolve setup threshold >>= fun n => pure (tally.check comparison n)) :=
  (resolve_still threshold).bind fun _ => Asks.pure trivial

/-- Each term that is begun has its share of the calls of an expression: induction on the
    expression, and of the terms those come first that are rolled first. -/
theorem calls_of_roll {p : Expr → List Nat → Prop} {expr : Expr}
    (hterm : ∀ term ∈ expr.terms, ∀ room before, ∃ calls,
      Calls setup.source before (term.roll setup room before) calls ∧ p term calls) :
    ∀ (room : Nat) (before : Ledger),
      Shared setup.source p expr.terms before (expr.roll setup room before) := by
  induction expr with
  | number n => exact fun room before => .nil (.nil_of_ok rfl)
  | named name =>
    intro room before
    have hstill : Still setup.source (resolve setup (.named name) >>= fun n =>
        pure ({ value := n } : Tally)) := (resolve_still _).bind fun n => Asks.pure trivial
    exact .nil (hstill.calls before)
  | dice count sides modifiers =>
    exact fun room before => .single (hterm _ List.mem_cons_self room before)
  | hopeFear advantage disadvantage modifiers =>
    exact fun room before => .single (hterm _ List.mem_cons_self room before)
  | missing => exact fun room before => .nil (.error (by simp) (by simp))
  | binary op left right ihl ihr =>
    have hleft := ihl fun term ht => hterm term (List.mem_append_left _ ht)
    have hright := ihr fun term ht => hterm term (List.mem_append_right _ ht)
    intro room before
    cases room with
    | zero => exact .refused
    | succ room =>
      rw [roll_binary, Expr.terms, ← List.append_nil right.terms]
      exact (hleft room before).bind fun l mid =>
        (hright room mid).bind fun r last => .nil ((apply_still _ op l r).calls last)
  | target inner comparison threshold ih =>
    intro room before
    cases room with
    | zero => exact .refused
    | succ room =>
      rw [Expr.terms, ← List.append_nil inner.terms]
      exact (ih hterm room before).bind fun tally mid =>
        .nil ((check_still tally comparison threshold).calls mid)

end Rolling

end Tabletop
