/-
  What a term may ask of its source.

  A dice term asks for nothing before its number and its size are known to be within the limits.
  Then each of `n` dice costs a call, and one more for every modifier that may replace it.  Spare
  rerolls and explosions are counted over the whole term, so that each of the two limits is paid for
  once, whatever the conditions are met by.
-/
import Tabletop.Proofs.Rolling.Calls
import Tabletop.Proofs.Rolling.Recount

namespace Tabletop

/-- The size is one that the limit allows. -/
def Sides.Within (limit : Int) : Sides Int → Prop
  | .faces n => 1 ≤ n ∧ n ≤ limit
  | .fate => True

/-- The bound of a die that the limit allows: 3 for a Fate die. -/
theorem Sides.Within.bound {limit : Int} {size : Sides Int} (h : size.Within limit) :
    size.bound = 3 ∨ 1 ≤ size.bound ∧ (size.bound : Int) ≤ limit := by
  cases size with
  | fate => exact Or.inl rfl
  | faces n =>
    obtain ⟨hlow, hhigh⟩ : 1 ≤ n ∧ n ≤ limit := h
    right
    show 1 ≤ n.toNat ∧ (n.toNat : Int) ≤ limit
    omega

/-- The most calls that `n` dice with modifiers may cost. -/
def diceCost (limits : Limits) (modifiers : List Modifier) (n : Int) : Int :=
  n * (1 + (Modifier.rerolls modifiers).length) + limits.rerolls +
    if Modifier.explosions modifiers = [] then 0 else limits.explosions

namespace Rolling

/-- The calls are not more than the term may make: none at all, or so many for dice whose number and
    size are within the limits, or so many for a Hope/Fear pair with its pools. -/
inductive Affordable (setup : Setup) : Expr → List Nat → Prop where
  | nothing (term : Expr) : Affordable setup term []
  | dice {count : Operand} {sides : Sides Operand} {modifiers : List Modifier} {calls : List Nat}
      {n : Int} {size : Sides Int} (number : count.value? setup.table = some n)
      (range : 1 ≤ n ∧ n ≤ setup.limits.dice) (sized : sides.value? setup.table = some size)
      (within : size.Within setup.limits.sides) (bounds : ∀ bound ∈ calls, bound = size.bound)
      (few : (calls.length : Int) ≤ diceCost setup.limits modifiers n) :
      Affordable setup (.dice count sides modifiers) calls
  | hopeFear {advantage disadvantage : Operand} {modifiers : List Modifier} {calls : List Nat}
      (bounds : ∀ bound ∈ calls, bound = 12 ∨ bound = 6)
      (few : (calls.length : Int) ≤ 2 + 2 * setup.limits.dice) :
      Affordable setup (.hopeFear advantage disadvantage modifiers) calls

/-- Every die that a term may ask for is a Fate die, one of the Hope/Fear dice, or within the limit
    on sizes. -/
theorem Affordable.bounds {setup : Setup} {term : Expr} {calls : List Nat}
    (h : Affordable setup term calls) :
    ∀ bound ∈ calls, bound ∈ [3, 6, 12] ∨ 1 ≤ bound ∧ (bound : Int) ≤ setup.limits.sides := by
  intro bound hbound
  cases h with
  | nothing => cases hbound
  | dice _ _ _ within bounds _ =>
    rw [bounds bound hbound]
    rcases within.bound with h | h
    · left
      rw [h]
      simp
    · exact Or.inr h
  | hopeFear bounds _ =>
    left
    rcases bounds bound hbound with rfl | rfl <;> simp

variable {setup : Setup}

/-! ## Dice terms -/

/-- A size that is let through is the value of its operand and within the limit. -/
theorem resolveSides_within (sides : Sides Operand) :
    Ensures (fun size => sides.value? setup.table = some size ∧ size.Within setup.limits.sides)
      (Excused setup fun _ => True) (resolveSides setup sides) := by
  cases sides with
  | fate => exact .pure ⟨rfl, trivial⟩
  | faces x =>
    rw [resolveSides_faces]
    refine .bind (resolveWithin_ensures (named_any x) .sides 1 setup.limits.sides) ?_
    rintro n ⟨hn, hlow, hhigh⟩
    refine .pure ⟨?_, hlow, hhigh⟩
    rw [Sides.value?, hn]
    rfl

/-- No limit of explosions in force is above the one that the cost of the dice allows for. -/
theorem exists_explosionLimit {limits : Limits} {modifiers : List Modifier} {n : Int}
    (hrerolls : 0 ≤ limits.rerolls) (hexplosions : 0 ≤ limits.explosions)
    (hlimit : ∀ m ∈ Modifier.explosions modifiers, m.limit = none) (hn : 1 ≤ n) :
    ∃ limit : Nat,
      (∀ m ∈ Modifier.explosions modifiers, m.limit.getD limits.explosions ≤ limit) ∧
        ∀ k : Nat, k ≤ n.toNat + n.toNat * (Modifier.rerolls modifiers).length +
            limits.rerolls.toNat + limit →
          (k : Int) ≤ diceCost limits modifiers n := by
  refine ⟨if Modifier.explosions modifiers = [] then 0 else limits.explosions.toNat,
    fun m hm => ?_, fun k hk => ?_⟩
  · rw [if_neg (List.ne_nil_of_mem hm), hlimit m hm]
    exact Int.self_le_toNat _
  · have hdice : (n.toNat : Int) = n := Int.toNat_of_nonneg (by omega)
    have hsplit : n * (1 + ((Modifier.rerolls modifiers).length : Int)) =
        (n.toNat + n.toNat * (Modifier.rerolls modifiers).length : Nat) := by
      push_cast
      rw [hdice, Int.mul_add, Int.mul_one]
    rw [diceCost, hsplit]
    split at hk
    · next hnone =>
      rw [if_pos hnone]
      omega
    · next hsome =>
      rw [if_neg hsome]
      omega

/-- A dice term makes no call before number and size are known to be within the limits, and then no
    more than the dice cost. -/
theorem diceTerm_asks (count : Operand) (sides : Sides Operand) {modifiers : List Modifier}
    (hrerolls : 0 ≤ setup.limits.rerolls) (hexplosions : 0 ≤ setup.limits.explosions)
    (hlimit : ∀ m ∈ Modifier.explosions modifiers, m.limit = none) :
    Asks setup.source
      (fun bound => ∃ size, sides.value? setup.table = some size ∧
        size.Within setup.limits.sides ∧ bound = size.bound)
      (fun k _ => k = 0 ∨ ∃ n, count.value? setup.table = some n ∧
        (1 ≤ n ∧ n ≤ setup.limits.dice) ∧ (k : Int) ≤ diceCost setup.limits modifiers n)
      (fun k => k = 0 ∨ ∃ n, count.value? setup.table = some n ∧
        (1 ≤ n ∧ n ≤ setup.limits.dice) ∧ (k : Int) ≤ diceCost setup.limits modifiers n)
      (diceTerm setup count sides modifiers) := by
  unfold diceTerm
  refine (resolveWithin_still _ _ _ _).bind_asks
    (resolveWithin_ensures (named_any count) .dice 1 setup.limits.dice) (Or.inl rfl) ?_
  rintro n ⟨hn, hrange⟩
  refine (resolveSides_still sides).bind_asks (resolveSides_within sides) (Or.inl rfl) ?_
  rintro size ⟨hsize, hwithin⟩
  -- From here on the calls are counted, against the same sum whether the roll goes well or fails.
  obtain ⟨limit, hbound, hcost⟩ := exists_explosionLimit hrerolls hexplosions hlimit hrange.1
  refine Asks.mono (Q := fun k _ => (k : Int) ≤ diceCost setup.limits modifiers n)
    (F := fun k => (k : Int) ≤ diceCost setup.limits modifiers n) ?_
    (fun k _ hk => Or.inr ⟨n, hn, hrange, hk⟩) fun k hk => Or.inr ⟨n, hn, hrange, hk⟩
  have hB : ∃ size', sides.value? setup.table = some size' ∧ size'.Within setup.limits.sides ∧
      size.bound = size'.bound := ⟨size, hsize, hwithin, rfl⟩
  refine (drawDice_asks hB none n.toNat).bind (fun k hk => hcost k (by omega)) ?_
  rintro drawn first ⟨hdrawn, hlength⟩
  -- No more dice are active than were drawn, after every reroll too.
  have hactive : first.countP (·.active) * (Modifier.rerolls modifiers).length ≤
      n.toNat * (Modifier.rerolls modifiers).length :=
    Nat.mul_le_mul_right _ (hlength ▸ List.countP_le_length)
  refine (applyRerolls_asks hB _ _ first).bind (fun k hk => hcost _ (by omega)) ?_
  rintro replaced ⟨rerolled, spare⟩ ⟨hreplaced, -⟩
  have hspent : replaced ≤ setup.limits.rerolls.toNat +
      first.countP (·.active) * (Modifier.rerolls modifiers).length := by omega
  refine (applyExplosions_asks hB _ hbound 0 rerolled).bind (fun k hk => hcost _ (by omega)) ?_
  rintro added exploded ⟨hadded, -⟩
  have hall : ((drawn + (replaced + (added + 0)) : Nat) : Int) ≤
      diceCost setup.limits modifiers n := hcost _ (by omega)
  refine (applySelections_still _ _).bind_asks .any hall fun selected _ => ?_
  refine (countUp_still _ _).bind_asks .any hall fun tally _ => ?_
  exact (note_still _).bind_asks .any hall fun _ _ => .pure hall

/-- A dice term asks for its dice within the limits, failing or not. -/
theorem diceTerm_affordable {count : Operand} {sides : Sides Operand} {modifiers : List Modifier}
    (hrerolls : 0 ≤ setup.limits.rerolls) (hexplosions : 0 ≤ setup.limits.explosions)
    (hlimit : ∀ m ∈ Modifier.explosions modifiers, m.limit = none) (before : Ledger) :
    ∃ calls, Calls setup.source before (diceTerm setup count sides modifiers before) calls ∧
      Affordable setup (.dice count sides modifiers) calls := by
  obtain ⟨calls, hcalls, hbounds, hvalue, hfault⟩ :=
    diceTerm_asks count sides hrerolls hexplosions hlimit before
  refine ⟨calls, hcalls, ?_⟩
  have hfew : calls.length = 0 ∨ ∃ n, count.value? setup.table = some n ∧
      (1 ≤ n ∧ n ≤ setup.limits.dice) ∧
        (calls.length : Int) ≤ diceCost setup.limits modifiers n := by
    cases hroll : diceTerm setup count sides modifiers before with
    | ok tally after => exact hvalue tally after hroll
    | error fault after => exact hfault fault after hroll
  cases calls with
  | nil => exact .nothing _
  | cons bound rest =>
    rcases hfew with hnone | ⟨n, hn, hrange, hfew⟩
    · cases hnone
    · obtain ⟨size, hsize, hwithin, -⟩ := hbounds bound List.mem_cons_self
      refine .dice hn hrange hsize hwithin (fun other hother => ?_) hfew
      obtain ⟨size', hsize', -, rfl⟩ := hbounds other hother
      rw [hsize] at hsize'
      cases hsize'
      rfl

/-! ## Hope and Fear -/

/-- A Hope/Fear roll asks for dice with twelve and six sides only, and for no more than its pair and
    two full pools. -/
theorem hopeFearTerm_asks (advantage disadvantage : Operand) (modifiers : List Modifier) :
    Asks setup.source (fun bound => bound = 12 ∨ bound = 6)
      (fun k _ => k = 0 ∨ (k : Int) ≤ 2 + 2 * setup.limits.dice)
      (fun k => k = 0 ∨ (k : Int) ≤ 2 + 2 * setup.limits.dice)
      (hopeFearTerm setup advantage disadvantage modifiers) := by
  rw [hopeFearTerm_eq]
  refine (resolveWithin_still _ _ _ _).bind_asks
    (resolveWithin_ensures (named_any advantage) .advantage 0 setup.limits.dice) (Or.inl rfl) ?_
  rintro m ⟨-, hm⟩
  refine (resolveWithin_still _ _ _ _).bind_asks
    (resolveWithin_ensures (named_any disadvantage) .disadvantage 0 setup.limits.dice)
    (Or.inl rfl) ?_
  rintro n ⟨-, hn⟩
  refine noteIf_asks _ (Or.inl rfl) ?_
  have hpair : pairSides.bound = 12 ∨ pairSides.bound = 6 := Or.inl rfl
  have hpool : poolSides.bound = 12 ∨ poolSides.bound = 6 := Or.inr rfl
  refine (draw_asks hpair).bind (fun k hk => by omega) ?_
  rintro _ hope rfl
  refine (draw_asks hpair).bind (fun k hk => by omega) ?_
  rintro _ fear rfl
  refine (drawDice_asks hpool _ m.toNat).bind (fun k hk => by omega) ?_
  rintro k helping ⟨hk, -⟩
  refine (drawDice_asks hpool _ n.toNat).bind (fun k hk => by omega) ?_
  rintro k' hindering ⟨hk', -⟩
  exact .pure (by omega)

/-- A Hope/Fear roll asks for its dice within the limits, failing or not. -/
theorem hopeFearTerm_affordable {advantage disadvantage : Operand} (modifiers : List Modifier)
    (before : Ledger) :
    ∃ calls, Calls setup.source before
        (hopeFearTerm setup advantage disadvantage modifiers before) calls ∧
      Affordable setup (.hopeFear advantage disadvantage modifiers) calls := by
  obtain ⟨calls, hcalls, hbounds, hvalue, hfault⟩ :=
    hopeFearTerm_asks advantage disadvantage modifiers before
  refine ⟨calls, hcalls, ?_⟩
  have hfew : calls.length = 0 ∨ (calls.length : Int) ≤ 2 + 2 * setup.limits.dice := by
    cases hroll : hopeFearTerm setup advantage disadvantage modifiers before with
    | ok tally after => exact hvalue tally after hroll
    | error fault after => exact hfault fault after hroll
  rcases hfew with hnone | hfew
  · rw [List.eq_nil_of_length_eq_zero hnone]
    exact .nothing _
  · exact .hopeFear hbounds hfew

end Rolling

end Tabletop
