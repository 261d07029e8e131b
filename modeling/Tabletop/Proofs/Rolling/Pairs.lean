/-
  The Hope/Fear pair of a roll.

  Operators hand on the pair of their right side where it has one, target checks that of what they
  check.  So of all pairs that the terms of an expression left, the last is the one that its tally
  has.  The dice tell the same: each Hope/Fear roll lays one die of hope and one of fear among them,
  and no other term lays any.
-/
import Tabletop.Proofs.Rolling.Conservation

namespace Tabletop

/-- The term is a Hope/Fear roll. -/
def Expr.isHopeFear : Expr → Bool
  | .hopeFear _ _ _ => true
  | _ => false

/-- The face of the last die with a role. -/
def lastFace (role : String) (dice : List Die) : Option Int :=
  (Breakdown.facesOf role dice).getLast?

/-- The tally has a pair if its term is a Hope/Fear roll, and that pair shows in the dice. -/
structure Paired (term : Expr) (tally : Tally) : Prop where
  present : tally.pair.isSome = term.isHopeFear
  hope : Breakdown.facesOf Role.hope tally.dice = (tally.pair.map (·.hope)).toList
  fear : Breakdown.facesOf Role.fear tally.dice = (tally.pair.map (·.fear)).toList

/-- A word for the die that won is right: it is one of three. -/
theorem HopeFear.tag_spec (pair : HopeFear) :
    (pair.tag = "Critical" ↔ pair.hope = pair.fear) ∧ (pair.tag = "Hope" ↔ pair.fear < pair.hope) ∧
      (pair.tag = "Fear" ↔ pair.hope < pair.fear) := by
  unfold HopeFear.tag
  split
  · next hsame => simp [hsame]
  · split
    · next hne hlt =>
      simp only [String.reduceEq, false_iff, true_iff]
      omega
    · next hne hle =>
      simp only [String.reduceEq, false_iff, true_iff]
      omega

/-- The tag of a tally is one of the three words. -/
theorem Tally.tag_mem (tally : Tally) :
    ∀ tag ∈ tally.pair.map (·.tag), tag ∈ ["Critical", "Hope", "Fear"] := by
  intro tag htag
  obtain ⟨pair, -, rfl⟩ := Option.mem_map.mp htag
  rw [HopeFear.tag]
  split_ifs <;> decide

namespace Breakdown

/-- Dice without a role have no faces by role. -/
theorem facesOf_eq_nil {dice : List Die} (h : ∀ die ∈ dice, die.role = none) (role : String) :
    facesOf role dice = [] := by
  rw [facesOf, List.filter_eq_nil_iff.mpr fun die hdie => by simp [h die hdie]]
  rfl

end Breakdown

namespace Rolling

variable {setup : Setup}

/-- The pair is that of the last Hope/Fear roll of the expression, and shows in its block: after
    that come no more dice of hope or fear. -/
inductive LastPair (setup : Setup) (expr : Expr) (dice : List Die) (pair : HopeFear) : Prop where
  | intro {earlier later : List Expr} {special : Expr} {before after : List (List Die)}
      {block : List Die} (terms : expr.terms = earlier ++ special :: later)
      (hopeFear : special.isHopeFear = true) (last : ∀ term ∈ later, term.isHopeFear = false)
      (blocks : dice = before.flatten ++ block ++ after.flatten)
      (left : List.Forall₂ (LeftBy setup) earlier before) (middle : LeftBy setup special block)
      (right : List.Forall₂ (LeftBy setup) later after)
      (hope : Breakdown.facesOf Role.hope block = [pair.hope])
      (fear : Breakdown.facesOf Role.fear block = [pair.fear])
      (rest : Breakdown.facesOf Role.hope after.flatten = [] ∧
        Breakdown.facesOf Role.fear after.flatten = []) :
      LastPair setup expr dice pair

theorem LastPair.lastFace {expr : Expr} {dice : List Die} {pair : HopeFear}
    (h : LastPair setup expr dice pair) :
    lastFace Role.hope dice = some pair.hope ∧ lastFace Role.fear dice = some pair.fear := by
  obtain ⟨-, -, -, rfl, -, -, -, hope, fear, hrest⟩ := h
  simp only [Tabletop.lastFace, Breakdown.facesOf_append, hope, fear, hrest]
  simp

/-! ## Terms -/

/-- Counting up makes neither a pair nor a verdict. -/
theorem countUp_bare (checks : List SuccessCheck) (dice : List Die) :
    Ensures (fun tally => tally.pair = none ∧ tally.verdict = none) (Excused setup fun _ => True)
      (countUp setup checks dice) := by
  refine .ite (fun _ => .pure ⟨rfl, rfl⟩) fun _ => ?_
  exact .bind (resolveChecks_ensures checks fun m _ => named_any _) fun values _ => .pure ⟨rfl, rfl⟩

theorem diceTerm_bare {count : Operand} {sides : Sides Operand} {modifiers : List Modifier}
    {before after : Ledger} {tally : Tally}
    (h : diceTerm setup count sides modifiers before = .ok tally after) :
    tally.pair = none ∧ tally.verdict = none := by
  rw [diceTerm_eq] at h
  obtain ⟨selected, mid, -, hconclude⟩ := Run.bind_eq_ok.mp h
  obtain ⟨counted, last, hcounted, hrest⟩ := Run.bind_eq_ok.mp hconclude
  cases hrest
  exact (countUp_bare _ selected.dice).value hcounted

/-- No die of a dice term has a role. -/
theorem diceTerm_paired {count : Operand} {sides : Sides Operand} {modifiers : List Modifier}
    {before after : Ledger} {tally : Tally}
    (h : diceTerm setup count sides modifiers before = .ok tally after) :
    Paired (.dice count sides modifiers) tally := by
  have hrole : ∀ die ∈ tally.dice, die.role = none := by
    have hconserved := (diceTerm_conserves count sides modifiers).value h
    cases hconserved with
    | dice number size coherent length active => exact fun die hdie => (size die hdie).2
  have hpair := (diceTerm_bare h).1
  exact ⟨by rw [hpair]; rfl, by rw [Breakdown.facesOf_eq_nil hrole, hpair]; rfl,
    by rw [Breakdown.facesOf_eq_nil hrole, hpair]; rfl⟩

theorem Dealt.paired {tally : Tally} (h : Dealt tally) (advantage disadvantage : Operand)
    (modifiers : List Modifier) : Paired (.hopeFear advantage disadvantage modifiers) tally := by
  obtain ⟨first, second, pool, other, rfl⟩ := h
  have hfaces := facesOf_hopeFear first.role_eq second.role_eq
    (fun die hdie => (pool die hdie).role_eq) fun die hdie => (other die hdie).role_eq
  refine ⟨rfl, (hfaces Role.hope).trans ?_, (hfaces Role.fear).trans ?_⟩
  · simp [Role.hope, Role.fear, Role.advantage, Role.disadvantage]
  · simp [Role.hope, Role.fear, Role.advantage, Role.disadvantage]

/-! ## Expressions -/

/-- What the terms of an expression were rolled to: each tally is paired to its term. -/
def Told (setup : Setup) (term : Expr) (tally : Tally) : Prop :=
  RolledTo setup term tally ∧ Paired term tally

theorem told_of_rolledTo {expr : Expr} {tallies : List Tally}
    (h : List.Forall₂ (RolledTo setup) expr.terms tallies) :
    List.Forall₂ (Told setup) expr.terms tallies := by
  refine (List.forall₂_and_left _ _ |>.mpr ⟨fun term => term_of_mem_terms, h⟩).imp ?_
  rintro term tally ⟨hterm, hrolled⟩
  refine ⟨hrolled, ?_⟩
  obtain ⟨room, before, after, hroll⟩ := hrolled
  rcases hterm with ⟨count, sides, modifiers, rfl⟩ | ⟨m, n, modifiers, rfl⟩
  · exact diceTerm_paired hroll
  · exact ((hopeFearTerm_dealt modifiers (named_any m) (named_any n)).value hroll).paired _ _ _

section Told

variable {terms : List Expr} {tallies : List Tally}

/-- Without a pair there is no Hope/Fear roll among the terms. -/
theorem pairs_eq_nil (h : List.Forall₂ (Told setup) terms tallies) :
    tallies.filterMap (·.pair) = [] ↔ ∀ term ∈ terms, term.isHopeFear = false := by
  induction h with
  | nil => simp
  | @cons term tally terms tallies head tail ih =>
    rw [List.forall_mem_cons, ← ih, ← head.2.present]
    cases hpair : tally.pair <;> simp [hpair]

/-- The dice of hope and those of fear are the pairs, in order. -/
theorem facesOf_pairs (h : List.Forall₂ (Told setup) terms tallies) :
    Breakdown.facesOf Role.hope (tallies.flatMap (·.dice)) =
        (tallies.filterMap (·.pair)).map (·.hope) ∧
      Breakdown.facesOf Role.fear (tallies.flatMap (·.dice)) =
        (tallies.filterMap (·.pair)).map (·.fear) := by
  induction h with
  | nil => exact ⟨rfl, rfl⟩
  | @cons term tally terms tallies head tail ih =>
    rw [List.flatMap_cons, Breakdown.facesOf_append, Breakdown.facesOf_append, head.2.hope,
      head.2.fear, ih.1, ih.2]
    cases hpair : tally.pair <;> simp [hpair]

/-- The terms fall apart at the one that left the last pair. -/
theorem lastPair_of_getLast? {expr : Expr} {pair : HopeFear}
    (h : List.Forall₂ (Told setup) expr.terms tallies)
    (hlast : (tallies.filterMap (·.pair)).getLast? = some pair) :
    LastPair setup expr (tallies.flatMap (·.dice)) pair := by
  have hblocks : ∀ {terms : List Expr} {tallies : List Tally},
      List.Forall₂ (Told setup) terms tallies →
        List.Forall₂ (LeftBy setup) terms (tallies.map (·.dice)) :=
    fun htold => leftBy_of_rolledTo (htold.imp fun _ _ htold => htold.1)
  -- Among the tallies, the last one with a pair.
  obtain ⟨pairs, hpairs⟩ := List.getLast?_eq_some_iff.mp hlast
  obtain ⟨front, back, rfl, -, hback⟩ := List.filterMap_eq_append_iff.mp hpairs
  obtain ⟨passed, tally, after, rfl, -, hpair, hafter⟩ := List.filterMap_eq_cons_iff.mp hback
  rw [← List.append_assoc] at h ⊢
  -- Among the terms, the one that it belongs to.
  have hearlier := List.forall₂_take_append _ _ _ h
  have hrest := List.forall₂_drop_append _ _ _ h
  have hterms := List.take_append_drop (front ++ passed).length expr.terms
  generalize expr.terms.take (front ++ passed).length = earlier at hearlier hterms
  generalize expr.terms.drop (front ++ passed).length = rest at hrest hterms
  cases hrest with
  | @cons special _ later _ hspecial hlater =>
    have hnone := (pairs_eq_nil hlater).mp hafter
    obtain ⟨⟨room, start, finish, hroll⟩, hpresent, hhope, hfear⟩ := hspecial
    rw [hpair] at hpresent hhope hfear
    refine .intro hterms.symm hpresent.symm hnone ?_ (hblocks hearlier)
      ⟨room, start, finish, tally, hroll, rfl⟩ (hblocks hlater) hhope hfear ?_
    · rw [List.flatMap_append, List.flatMap_cons, List.flatMap_def, List.flatMap_def,
        List.append_assoc]
    · obtain ⟨hhopes, hfears⟩ := facesOf_pairs hlater
      rw [← List.flatMap_def, hhopes, hfears, hafter]
      exact ⟨rfl, rfl⟩

end Told

/-- **The pair of a roll** is that of the last Hope/Fear roll of its expression, and there is none
    just when there is no such roll. -/
theorem roll_pair {expr : Expr} {room : Nat} {before after : Ledger} {tally : Tally}
    (h : expr.roll setup room before = .ok tally after) :
    (tally.pair = none ↔ ∀ term ∈ expr.terms, term.isHopeFear = false) ∧
      ∀ pair ∈ tally.pair, LastPair setup expr tally.dice pair := by
  obtain ⟨tallies, hrolled, hdice, hpair⟩ := tallies_of_roll h
  have htold := told_of_rolledTo hrolled
  rw [hdice, hpair, List.getLast?_eq_none_iff]
  exact ⟨pairs_eq_nil htold, fun pair hlast => lastPair_of_getLast? htold hlast⟩

end Rolling

end Tabletop
