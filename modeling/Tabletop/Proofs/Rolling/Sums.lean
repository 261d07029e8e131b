/-
  Sums: expressions of terms with nothing but plus signs between them.

  1. A sum is calculated by adding up what its blocks are worth.
  2. A block of a Hope/Fear roll is worth its pair and the best die of each pool.  So a sum of such
     rolls comes to all faces of hope and fear, and one best die for each roll.
  3. A block of a term that checks for successes is worth its successes.  So a sum of such terms
     comes to its number of successes.
-/
import Tabletop.Proofs.Rolling.Pairs

namespace Tabletop

/-- The expression is made of terms of one kind, added up. -/
inductive Expr.SumOf (p : Expr → Prop) : Expr → Prop where
  | term {e : Expr} (kind : p e) : SumOf p e
  | add {left right : Expr} (l : SumOf p left) (r : SumOf p right) :
      SumOf p (.binary .add left right)

namespace Expr.SumOf

variable {p : Expr → Prop} {e : Expr}

/-- What is of its own terms is the only one. -/
theorem terms_eq_singleton {term : Expr} (h : term ∈ term.terms) : term.terms = [term] := by
  rcases term_of_mem_terms h with ⟨count, sides, modifiers, rfl⟩ | ⟨m, n, modifiers, rfl⟩ <;> rfl

/-- A sum of such terms has no others. -/
theorem forall_mem_terms (hp : ∀ term, p term → term ∈ term.terms) (h : e.SumOf p) :
    ∀ term ∈ e.terms, p term := by
  induction h with
  | term kind =>
    rw [terms_eq_singleton (hp _ kind)]
    simpa using kind
  | add l r ihl ihr => exact List.forall_mem_append.mpr ⟨ihl, ihr⟩

theorem exists_mem_terms (hp : ∀ term, p term → term ∈ term.terms) (h : e.SumOf p) :
    ∃ term, term ∈ e.terms := by
  induction h with
  | term kind => exact ⟨_, hp _ kind⟩
  | add l r ihl ihr =>
    obtain ⟨term, hterm⟩ := ihl
    exact ⟨term, List.mem_append_left _ hterm⟩

/-- A sum of terms is calculated as the sum of their values: induction on the sum. -/
theorem calculate (hp : ∀ term, p term → term ∈ term.terms) (h : e.SumOf p)
    (table : Bindings Int) {values : List Int} (hlength : values.length = e.terms.length) :
    e.calculate table values = some values.sum := by
  induction h generalizing values with
  | term kind =>
    rw [terms_eq_singleton (hp _ kind), List.length_singleton, List.length_eq_one_iff] at hlength
    obtain ⟨value, rfl⟩ := hlength
    rcases term_of_mem_terms (hp _ kind) with
      ⟨count, sides, modifiers, rfl⟩ | ⟨m, n, modifiers, rfl⟩
    · simp [Expr.calculate]
    · simp [Expr.calculate]
  | @add left right l r ihl ihr =>
    have hterms : (Expr.binary .add left right).terms = left.terms ++ right.terms := rfl
    rw [hterms, List.length_append] at hlength
    rw [Expr.calculate, ihl (by rw [List.length_take]; omega),
      ihr (by rw [List.length_drop]; omega), Option.bind_some, Option.bind_some, Operator.result?,
      List.sum_take_add_sum_drop]

end Expr.SumOf

namespace Recounts

variable {table : Bindings Int} {e : Expr} {blocks : List (List Die)} {value : Int}
  {successes : Option Int} {p : Expr → Prop}

/-- A sum of terms comes to what its blocks are worth. -/
theorem value_eq_sum (h : Recounts table e blocks value successes)
    (hp : ∀ term, p term → term ∈ term.terms) (hsum : e.SumOf p) :
    value = (List.zipWith Expr.worth e.terms blocks).sum := by
  have hlength : (List.zipWith Expr.worth e.terms blocks).length = e.terms.length := by
    rw [List.length_zipWith, ← h.fit.length_eq, Nat.min_self]
  exact Option.some.inj (h.calculated.symm.trans (hsum.calculate hp table hlength))

end Recounts

/-! ## Hope/Fear rolls -/

/-- The best face of the dice with a role, and 0 where there are none. -/
def bestOf (role : String) (dice : List Die) : Int := (Breakdown.facesOf role dice).max?.getD 0

/-- A Hope/Fear roll is its own term. -/
theorem mem_terms_of_isHopeFear {term : Expr} (h : term.isHopeFear = true) : term ∈ term.terms := by
  cases term with
  | hopeFear m n modifiers => exact List.mem_singleton_self _
  | _ => cases h

/-- What blocks of Hope/Fear rolls are worth together: induction on the rolls. -/
theorem sum_worth_of_hopeFear {terms : List Expr} (hterms : ∀ term ∈ terms, term.isHopeFear = true)
    {blocks : List (List Die)} (hlength : terms.length = blocks.length) :
    (List.zipWith Expr.worth terms blocks).sum =
      (Breakdown.facesOf Role.hope blocks.flatten).sum +
        (Breakdown.facesOf Role.fear blocks.flatten).sum +
          (blocks.map (bestOf Role.advantage)).sum -
            (blocks.map (bestOf Role.disadvantage)).sum := by
  induction terms generalizing blocks with
  | nil =>
    obtain rfl := List.length_eq_zero_iff.mp hlength.symm
    rfl
  | cons term terms ih =>
    obtain ⟨block, blocks, rfl⟩ := List.exists_cons_of_length_eq_add_one hlength.symm
    rw [List.forall_mem_cons] at hterms
    have hworth : term.worth block = (Breakdown.facesOf Role.hope block).sum +
        (Breakdown.facesOf Role.fear block).sum + bestOf Role.advantage block -
          bestOf Role.disadvantage block := by
      cases term with
      | hopeFear m n modifiers => rfl
      | _ => cases hterms.1
    rw [List.zipWith_cons_cons, List.sum_cons, ih hterms.2 (Nat.succ.inj hlength), hworth,
      List.flatten_cons, Breakdown.facesOf_append, Breakdown.facesOf_append, List.sum_append,
      List.sum_append, List.map_cons, List.map_cons, List.sum_cons, List.sum_cons]
    omega

/-- A sum of Hope/Fear rolls comes to all faces of hope and of fear, and to the best die of each
    pool of each roll. -/
theorem Recounts.value_of_hopeFear {table : Bindings Int} {e : Expr} {blocks : List (List Die)}
    {value : Int} {successes : Option Int} (h : Recounts table e blocks value successes)
    (hsum : e.SumOf (·.isHopeFear = true)) :
    value = (Breakdown.facesOf Role.hope blocks.flatten).sum +
      (Breakdown.facesOf Role.fear blocks.flatten).sum +
        (blocks.map (bestOf Role.advantage)).sum - (blocks.map (bestOf Role.disadvantage)).sum := by
  have hp : ∀ term : Expr, term.isHopeFear = true → term ∈ term.terms :=
    fun _ => mem_terms_of_isHopeFear
  rw [h.value_eq_sum hp hsum, sum_worth_of_hopeFear (hsum.forall_mem_terms hp) h.fit.length_eq]

/-! ## Counts of successes -/

theorem mem_terms_of_checks {term : Expr} (h : term.checks ≠ []) : term ∈ term.terms := by
  cases term with
  | dice count sides modifiers => exact List.mem_singleton_self _
  | _ => exact absurd rfl h

/-- What blocks of terms that check for successes are worth together: induction on the terms. -/
theorem sum_worth_of_checks {terms : List Expr} (hterms : ∀ term ∈ terms, term.checks ≠ [])
    {blocks : List (List Die)} (hlength : terms.length = blocks.length) :
    (List.zipWith Expr.worth terms blocks).sum = blocks.flatten.countP (·.success) := by
  induction terms generalizing blocks with
  | nil =>
    obtain rfl := List.length_eq_zero_iff.mp hlength.symm
    rfl
  | cons term terms ih =>
    obtain ⟨block, blocks, rfl⟩ := List.exists_cons_of_length_eq_add_one hlength.symm
    rw [List.forall_mem_cons] at hterms
    have hworth : term.worth block = block.countP (·.success) := by
      cases term with
      | dice count sides modifiers => exact if_neg hterms.1
      | _ => exact absurd rfl hterms.1
    rw [List.zipWith_cons_cons, List.sum_cons, ih hterms.2 (Nat.succ.inj hlength), hworth,
      List.flatten_cons, List.countP_append, Int.natCast_add]

/-- A sum of terms that check for successes comes to the number of its successes. -/
theorem Recounts.successes_of_checks {table : Bindings Int} {e : Expr} {blocks : List (List Die)}
    {value : Int} {successes : Option Int} (h : Recounts table e blocks value successes)
    (hsum : e.SumOf (·.checks ≠ [])) : successes = some value := by
  have hp : ∀ term : Expr, term.checks ≠ [] → term ∈ term.terms := fun _ => mem_terms_of_checks
  have hterms := hsum.forall_mem_terms hp
  cases hs : successes with
  | none =>
    obtain ⟨term, hterm⟩ := hsum.exists_mem_terms hp
    exact absurd (h.uncounted.mp hs term hterm) (hterms term hterm)
  | some n =>
    rw [h.counted n hs, h.value_eq_sum hp hsum, sum_worth_of_checks hterms h.fit.length_eq]

end Tabletop
