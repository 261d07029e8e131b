/-
  **Recounting**: what an expression came to, computed again from the dice it left.

  1. The terms of an expression are its dice terms and Hope/Fear rolls, from left to right.  Each of
     them left one block of dice, and the blocks stand in the order of the terms.
  2. What a block is worth shows in its dice: the faces of those still active, or how many are
     marked as successes; for a Hope/Fear roll the pair and the best dice of its pools.
  3. An expression is calculated from what its blocks are worth as if numbers stood in the places of
     its terms.

  None of this knows how dice are rolled, so that a roll can be held against it: `roll_recounts`
  says that the value of a roll is what its dice are worth, and its successes are the dice so
  marked.
-/
import Mathlib.Data.Rat.Floor
import Tabletop.Breakdown
import Tabletop.Proofs.Rolling.Ensures
import Tabletop.Proofs.Rolling.Record

namespace Tabletop

/-! ## Operators -/

/-- The value of an operator on two integers: a quotient goes to its floor, and there is none by
    0. -/
def Operator.result? (operator : Operator) (a b : Int) : Option Int :=
  match operator with
  | add => some (a + b)
  | sub => some (a - b)
  | mul => some (a * b)
  | div => if b = 0 then none else some ⌊(a : ℚ) / b⌋
  | other _ => none

/-- The floor of a quotient, by either sign of the divisor. -/
theorem floor_div (a b : Int) : ⌊(a : ℚ) / b⌋ = a.fdiv b := by
  rcases Int.le_total 0 b with hb | hb
  · obtain ⟨d, rfl⟩ := Int.eq_ofNat_of_zero_le hb
    rw [Int.fdiv_eq_ediv_of_nonneg a hb]
    exact Rat.floor_intCast_div_natCast a d
  · obtain ⟨d, hd⟩ := Int.eq_ofNat_of_zero_le (Int.neg_nonneg_of_nonpos hb)
    obtain rfl : b = -(d : Int) := by omega
    rw [← Int.neg_fdiv_neg, Int.neg_neg, Int.fdiv_eq_ediv_of_nonneg _ (Int.natCast_nonneg d),
      ← Rat.floor_intCast_div_natCast]
    push_cast
    rw [div_neg, neg_div]

/-- An operator yields just the value that it has on paper. -/
theorem Operator.apply_eq_ok {operator : Operator} {a b value : Int} :
    operator.apply a b = .ok value ↔ operator.result? a b = some value := by
  cases operator with
  | div =>
    by_cases hb : b = 0
    · simp [apply, result?, hb]
    · simp [apply, result?, hb, floor_div]
  | other symbol => simp [apply, result?]
  | _ => simp [apply, result?]

/-! ## Terms and their blocks -/

namespace Expr

/-- The terms of an expression that dice are drawn for, from left to right. -/
def terms : Expr → List Expr
  | .dice count sides modifiers => [.dice count sides modifiers]
  | .hopeFear advantage disadvantage modifiers => [.hopeFear advantage disadvantage modifiers]
  | .binary _ left right => left.terms ++ right.terms
  | .target inner _ _ => inner.terms
  | _ => []

/-- The success checks of a term.  The modifiers of a Hope/Fear roll check nothing. -/
def checks : Expr → List SuccessCheck
  | .dice _ _ modifiers => Modifier.successChecks modifiers
  | _ => []

/-- What a block of dice is worth to its term. -/
def worth : Expr → List Die → Int
  | .dice _ _ modifiers, block =>
    if Modifier.successChecks modifiers = [] then ((block.filter (·.active)).map (·.face)).sum
    else block.countP (·.success)
  | .hopeFear _ _ _, block =>
    (Breakdown.facesOf Role.hope block).sum + (Breakdown.facesOf Role.fear block).sum +
      (Breakdown.facesOf Role.advantage block).max?.getD 0 -
        (Breakdown.facesOf Role.disadvantage block).max?.getD 0
  | _, _ => 0

/-- The value of an expression with numbers in the places of its terms; a target check compares a
    value and does not change it. -/
def calculate (table : Bindings Int) : Expr → List Int → Option Int
  | .number n, _ => some n
  | .named name, _ => table.get? name
  | .dice _ _ _, values => values.head?
  | .hopeFear _ _ _, values => values.head?
  | .binary operator left right, values =>
    (left.calculate table (values.take left.terms.length)).bind fun a =>
      (right.calculate table (values.drop left.terms.length)).bind fun b => operator.result? a b
  | .target inner _ _, values => inner.calculate table values
  | .missing, _ => none

end Expr

/-- The die meets the check. -/
def SuccessCheck.Met (table : Bindings Int) (check : SuccessCheck) (die : Die) : Prop :=
  ∃ n, check.threshold.value? table = some n ∧ check.comparison.holds die.face n = true

/-- The dice can be those of the term.  In a dice term they have its size and no role, and just
    those are marked as successes that are active and meet one of its checks.  In a Hope/Fear roll
    the pair comes first, then one pool and the other, and none is marked. -/
inductive IsBlock (table : Bindings Int) : Expr → List Die → Prop where
  | dice {count : Operand} {sides : Sides Operand} {modifiers : List Modifier} {block : List Die}
      (size : ∀ die ∈ block, sides.value? table = some die.sides ∧ die.role = none)
      (marked : ∀ die ∈ block, die.success = true ↔ die.active = true ∧
        ∃ check ∈ Modifier.successChecks modifiers, check.Met table die) :
      IsBlock table (.dice count sides modifiers) block
  | hopeFear {advantage disadvantage : Operand} {modifiers : List Modifier} {hope fear : Die}
      {helping hindering : List Die} (first : hope.role = some Role.hope)
      (second : fear.role = some Role.fear) (pool : ∀ die ∈ helping, die.role = some Role.advantage)
      (other : ∀ die ∈ hindering, die.role = some Role.disadvantage)
      (unmarked : ∀ die ∈ hope :: fear :: (helping ++ hindering), die.success = false) :
      IsBlock table (.hopeFear advantage disadvantage modifiers)
        (hope :: fear :: (helping ++ hindering))

/-- The blocks of an expression give its value and its successes again. -/
structure Recounts (table : Bindings Int) (expr : Expr) (blocks : List (List Die)) (value : Int)
    (successes : Option Int) : Prop where
  fit : List.Forall₂ (IsBlock table) expr.terms blocks
  calculated : expr.calculate table (List.zipWith Expr.worth expr.terms blocks) = some value
  uncounted : successes = none ↔ ∀ term ∈ expr.terms, term.checks = []
  counted : ∀ n ∈ successes, n = blocks.flatten.countP (·.success)

/-! ## Blocks put together -/

/-- Without checks no die of a block is marked. -/
theorem IsBlock.countP_success {table : Bindings Int} {term : Expr} {block : List Die}
    (h : IsBlock table term block) (hchecks : term.checks = []) :
    block.countP (·.success) = 0 := by
  rw [List.countP_eq_zero]
  intro die hdie hmarked
  cases h with
  | dice size marked =>
    obtain ⟨-, check, hcheck, -⟩ := (marked die hdie).mp hmarked
    have hnone : check ∈ ([] : List SuccessCheck) := hchecks ▸ hcheck
    cases hnone
  | hopeFear first second pool other unmarked =>
    rw [unmarked die hdie] at hmarked
    cases hmarked

/-- The successes are the dice so marked, whether they were counted or not. -/
theorem Recounts.getD_successes {table : Bindings Int} {expr : Expr} {blocks : List (List Die)}
    {value : Int} {successes : Option Int} (h : Recounts table expr blocks value successes) :
    successes.getD 0 = blocks.flatten.countP (·.success) := by
  cases hs : successes with
  | some n => exact h.counted n hs
  | none =>
    have hchecks := h.uncounted.mp hs
    have hzero : ∀ {terms : List Expr} {blocks : List (List Die)},
        List.Forall₂ (IsBlock table) terms blocks → (∀ term ∈ terms, term.checks = []) →
          blocks.flatten.countP (·.success) = 0 := by
      intro terms blocks hfit
      induction hfit with
      | nil => simp
      | cons hblock _ ih =>
        intro hnone
        rw [List.forall_mem_cons] at hnone
        rw [List.flatten_cons, List.countP_append, hblock.countP_success hnone.1, ih hnone.2]
    rw [hzero h.fit hchecks]
    rfl

/-- Two sides of an operator have the blocks of the left one before those of the right one. -/
theorem Recounts.binary {table : Bindings Int} {operator : Operator} {left right : Expr}
    {ls rs : List (List Die)} {l r : Tally} {value : Int}
    (hl : Recounts table left ls l.value l.successes)
    (hr : Recounts table right rs r.value r.successes)
    (hvalue : operator.apply l.value r.value = .ok value) :
    Recounts table (.binary operator left right) (ls ++ rs) value
      (Tally.addSuccesses l.successes r.successes) := by
  have hlength : left.terms.length = ls.length := hl.fit.length_eq
  have hsplit : List.zipWith Expr.worth (left.terms ++ right.terms) (ls ++ rs) =
      List.zipWith Expr.worth left.terms ls ++ List.zipWith Expr.worth right.terms rs :=
    List.zipWith_append hlength
  have hfirst : (List.zipWith Expr.worth left.terms ls).length = left.terms.length := by
    rw [List.length_zipWith, hlength, Nat.min_self]
  refine ⟨List.rel_append hl.fit hr.fit, ?_, ?_, ?_⟩
  · have hterms : (Expr.binary operator left right).terms = left.terms ++ right.terms := rfl
    rw [hterms, hsplit, Expr.calculate, ← hfirst, List.take_left, List.drop_left, hl.calculated,
      Option.bind_some, hr.calculated, Option.bind_some]
    exact Operator.apply_eq_ok.mp hvalue
  · have hnone : Tally.addSuccesses l.successes r.successes = none ↔
        l.successes = none ∧ r.successes = none := by
      cases l.successes <;> cases r.successes <;> simp [Tally.addSuccesses]
    rw [hnone, hl.uncounted, hr.uncounted]
    exact List.forall_mem_append.symm
  · intro n hn
    have hsum : n = l.successes.getD 0 + r.successes.getD 0 := by
      cases hls : l.successes <;> cases hrs : r.successes <;> rw [hls, hrs] at hn <;> cases hn <;>
        rfl
    rw [hsum, hl.getD_successes, hr.getD_successes, List.flatten_append, List.countP_append,
      Int.natCast_add]

/-! ## Faces by role -/

namespace Breakdown

theorem facesOf_append (role : String) (dice more : List Die) :
    facesOf role (dice ++ more) = facesOf role dice ++ facesOf role more := by
  rw [facesOf, List.filter_append, List.map_append]
  rfl

/-- Of dice that all have one role, the faces by role are all of them or none. -/
theorem facesOf_of_role {other : String} {dice : List Die}
    (h : ∀ die ∈ dice, die.role = some other) (role : String) :
    facesOf role dice = if other = role then dice.map (·.face) else [] := by
  rw [facesOf]
  split
  · next heq =>
    rw [List.filter_eq_self.mpr fun die hdie => by simp [h die hdie, heq]]
  · next hne =>
    rw [List.filter_eq_nil_iff.mpr fun die hdie => by simp [h die hdie, hne]]
    rfl

end Breakdown

section HopeFear

variable {hope fear : Die} {helping hindering : List Die}

/-- In a block of a Hope/Fear roll the roles tell the dice apart. -/
theorem facesOf_hopeFear (first : hope.role = some Role.hope)
    (second : fear.role = some Role.fear) (pool : ∀ die ∈ helping, die.role = some Role.advantage)
    (other : ∀ die ∈ hindering, die.role = some Role.disadvantage) (role : String) :
    Breakdown.facesOf role (hope :: fear :: (helping ++ hindering)) =
      (if Role.hope = role then [hope.face] else []) ++
        ((if Role.fear = role then [fear.face] else []) ++
          ((if Role.advantage = role then helping.map (·.face) else []) ++
            if Role.disadvantage = role then hindering.map (·.face) else [])) := by
  have hfirst : ∀ die ∈ [hope], die.role = some Role.hope := by simpa using first
  have hsecond : ∀ die ∈ [fear], die.role = some Role.fear := by simpa using second
  have hblock : hope :: fear :: (helping ++ hindering) =
      [hope] ++ ([fear] ++ (helping ++ hindering)) := rfl
  rw [hblock, Breakdown.facesOf_append, Breakdown.facesOf_append, Breakdown.facesOf_append,
    Breakdown.facesOf_of_role hfirst, Breakdown.facesOf_of_role hsecond,
    Breakdown.facesOf_of_role pool, Breakdown.facesOf_of_role other]
  rfl

/-- A Hope/Fear roll is worth its pair, with the best helping die and without the best hindering
    one. -/
theorem worth_hopeFear {advantage disadvantage : Operand} {modifiers : List Modifier}
    (first : hope.role = some Role.hope) (second : fear.role = some Role.fear)
    (pool : ∀ die ∈ helping, die.role = some Role.advantage)
    (other : ∀ die ∈ hindering, die.role = some Role.disadvantage) :
    (Expr.hopeFear advantage disadvantage modifiers).worth
        (hope :: fear :: (helping ++ hindering)) =
      hope.face + fear.face + Rolling.best helping - Rolling.best hindering := by
  have hfaces := facesOf_hopeFear first second pool other
  -- The four roles are four different words.
  rw [Expr.worth, hfaces, hfaces, hfaces, hfaces]
  simp [Role.hope, Role.fear, Role.advantage, Role.disadvantage, Rolling.best]

end HopeFear

/-- The roles that dice can have. -/
def Role.all : List String := [Role.hope, Role.fear, Role.advantage, Role.disadvantage]

/-! ## Rolls -/

/-- The dice that a roll left are blocks that give its value and its successes again. -/
def Recounted (table : Bindings Int) (expr : Expr) (tally : Tally) : Prop :=
  ∃ blocks : List (List Die), blocks.flatten = tally.dice ∧
    Recounts table expr blocks tally.value tally.successes

/-- A dice term is recounted from a block of its own. -/
theorem Recounted.dice {table : Bindings Int} {count : Operand} {sides : Sides Operand}
    {modifiers : List Modifier} {tally : Tally}
    (hblock : IsBlock table (.dice count sides modifiers) tally.dice)
    (hvalue : tally.value = (Expr.dice count sides modifiers).worth tally.dice)
    (hsuccesses : tally.successes = if Modifier.successChecks modifiers = [] then none
      else some ((tally.dice.countP (·.success) : Nat) : Int)) :
    Recounted table (.dice count sides modifiers) tally := by
  refine ⟨[tally.dice], List.append_nil _, .cons hblock .nil, ?_, ?_, fun n hn => ?_⟩
  · rw [hvalue]
    rfl
  · rw [hsuccesses]
    simp [Expr.terms, Expr.checks]
  · rw [hsuccesses] at hn
    split at hn
    · cases hn
    · cases hn
      simp

namespace Rolling

variable {setup : Setup} {P : String → Prop}

theorem activeSum_eq (dice : List Die) :
    activeSum dice = ((dice.filter (·.active)).map (·.face)).sum := by
  induction dice with
  | nil => rfl
  | cons die rest ih =>
    rw [activeSum, List.filter_cons]
    split
    · rw [List.map_cons, List.sum_cons, ih]
    · exact ih

/-- A die of a dice term before the success checks. -/
structure Unchecked (table : Bindings Int) (sides : Sides Operand) (die : Die) : Prop where
  size : sides.value? table = some die.sides
  role : die.role = none
  unmarked : die.success = false

/-- Success checks mark the active dice that meet one of them. -/
theorem markSuccesses_marks {checks : List SuccessCheck} {values : List (Comparison × Int)}
    {table : Bindings Int} (hvalues : List.Forall₂ (fun m value => m.comparison = value.1 ∧
      m.threshold.value? table = some value.2) checks values) {dice : List Die}
    (hdice : ∀ die ∈ dice, die.success = false) :
    ∀ die ∈ markSuccesses values dice,
      (die.success = true ↔ die.active = true ∧ ∃ check ∈ checks, check.Met table die) := by
  -- A check is met by its value just when it is met as it is written.
  have hmet : ∀ die : Die, values.any (fun check => check.1.holds die.face check.2) = true ↔
      ∃ check ∈ checks, check.Met table die := by
    intro die
    induction hvalues with
    | nil => simp
    | @cons check value checks values hhead _ ih =>
      obtain ⟨hcomparison, hthreshold⟩ := hhead
      simp only [List.any_cons, Bool.or_eq_true, ih, List.exists_mem_cons_iff]
      refine or_congr_left ?_
      rw [SuccessCheck.Met, hcomparison, hthreshold]
      simp
  intro die hdie
  obtain ⟨before, hbefore, rfl⟩ := List.mem_map.mp hdie
  split
  · next hmarks =>
    rw [Bool.and_eq_true, hmet] at hmarks
    exact iff_of_true rfl hmarks
  · next hmarks =>
    rw [Bool.and_eq_true, hmet] at hmarks
    rw [hdice before hbefore]
    exact iff_of_false Bool.false_ne_true hmarks

/-- What counting up says of dice is what they recount to. -/
theorem countUp_ensures (count : Operand) {sides : Sides Operand} {modifiers : List Modifier}
    (hnamed : ∀ m ∈ Modifier.successChecks modifiers, Named P m.threshold) {dice : List Die}
    (hdice : ∀ die ∈ dice, Unchecked setup.table sides die) :
    Ensures (Recounted setup.table (.dice count sides modifiers)) (Excused setup P)
      (countUp setup (Modifier.successChecks modifiers) dice) := by
  show Ensures _ _ (if (Modifier.successChecks modifiers).isEmpty then
      pure ({ value := activeSum dice, dice } : Tally)
    else resolveChecks setup (Modifier.successChecks modifiers) >>= fun values =>
      pure ({ value := successCount (markSuccesses values dice)
              dice := markSuccesses values dice
              successes := some (successCount (markSuccesses values dice) : Nat) } : Tally))
  refine .ite (fun hnone => .pure ?_) fun hsome => ?_
  · have hchecks : Modifier.successChecks modifiers = [] := List.isEmpty_iff.mp hnone
    refine .dice (.dice (fun die hdie => ⟨(hdice die hdie).size, (hdice die hdie).role⟩) ?_) ?_ ?_
    · intro die hdie
      rw [(hdice die hdie).unmarked, hchecks]
      simp
    · rw [Expr.worth, if_pos hchecks, activeSum_eq]
    · rw [if_pos hchecks]
  · have hchecks : Modifier.successChecks modifiers ≠ [] := fun h => hsome (List.isEmpty_iff.mpr h)
    refine .bind (resolveChecks_ensures _ hnamed) fun values hvalues => .pure ?_
    refine .dice (.dice (fun die hdie => ?_) ?_) ?_ ?_
    · obtain ⟨before, hbefore, rfl⟩ := List.mem_map.mp hdie
      have hd := hdice before hbefore
      split
      · exact ⟨hd.size, hd.role⟩
      · exact ⟨hd.size, hd.role⟩
    · exact markSuccesses_marks hvalues fun die hdie => (hdice die hdie).unmarked
    · rw [Expr.worth, if_neg hchecks]
      rfl
    · rw [if_neg hchecks]
      rfl

/-- Of the four kinds of modifiers three mark dice without making successes of them. -/
theorem diceTerm_ensures {count : Operand} {sides : Sides Operand} {modifiers : List Modifier}
    (hcount : Named P count) (hsides : NamedSides P sides)
    (hmodifiers : ∀ m ∈ modifiers, NamedIn P m) :
    Ensures (Recounted setup.table (.dice count sides modifiers)) (Excused setup P)
      (diceTerm setup count sides modifiers) := by
  obtain ⟨hrerolls, hexplosions, hselections, hchecks⟩ := namedIn_by_kind hmodifiers
  unfold diceTerm
  refine .bind (resolveWithin_ensures hcount .dice 1 setup.limits.dice) fun n _ => ?_
  refine .bind (resolveSides_ensures hsides) fun size hsize => ?_
  have hdrawn : ∀ face : Int, Unchecked setup.table sides { sides := size, face } :=
    fun face => ⟨hsize, rfl, rfl⟩
  refine .bind (drawDice_ensures hdrawn n.toNat) fun first hfirst => ?_
  refine .bind (applyRerolls_ensures hdrawn (fun die h _ => ⟨h.size, h.role, h.unmarked⟩) _
    hrerolls _ first hfirst) fun ⟨rerolled, spare⟩ hrerolled => ?_
  refine .bind (applyExplosions_ensures hdrawn (fun die h _ _ => ⟨h.size, h.role, h.unmarked⟩) _
    hexplosions 0 rerolled hrerolled) fun exploded hexploded => ?_
  refine .bind (applySelections_ensures (fun die h => ⟨h.size, h.role, h.unmarked⟩) _
    hselections exploded hexploded) fun selected hselected => ?_
  refine .bind (countUp_ensures count hchecks hselected) fun tally htally => ?_
  exact .bind (note_ensures _) fun _ _ => .pure htally

/-- A die as it is drawn for a role. -/
def Fresh (sides : Sides Int) (role : String) (die : Die) : Prop :=
  ∃ face, die = { sides, face, role := some role }

/-- What a Hope/Fear roll leaves: its two dice, then both pools, all as they were drawn. -/
inductive Dealt (tally : Tally) : Prop where
  | intro {hope fear : Die} {helping hindering : List Die} (first : Fresh pairSides Role.hope hope)
      (second : Fresh pairSides Role.fear fear)
      (pool : ∀ die ∈ helping, Fresh poolSides Role.advantage die)
      (other : ∀ die ∈ hindering, Fresh poolSides Role.disadvantage die)
      (left : tally =
        { value := hope.face + fear.face + best helping - best hindering
          dice := hope :: fear :: (helping ++ hindering)
          pair := some ⟨hope.face, fear.face⟩ }) :
      Dealt tally

theorem Fresh.role_eq {sides : Sides Int} {role : String} {die : Die} (h : Fresh sides role die) :
    die.role = some role := by
  obtain ⟨face, rfl⟩ := h
  rfl

/-- What holds of every fresh die with one of the four roles holds of the dice of a Hope/Fear
    roll. -/
theorem Dealt.forall_mem {p : Die → Prop} {tally : Tally} (h : Dealt tally)
    (hp : ∀ (sides : Sides Int) (face : Int) (role : String), sides ≠ .fate → role ∈ Role.all →
      p { sides, face, role := some role }) : ∀ die ∈ tally.dice, p die := by
  have hfresh : ∀ {sides role}, sides ≠ .fate → role ∈ Role.all →
      ∀ die, Fresh sides role die → p die := by
    rintro sides role hsides hrole _ ⟨face, rfl⟩
    exact hp sides face role hsides hrole
  obtain ⟨first, second, pool, other, rfl⟩ := h
  rw [List.forall_mem_cons, List.forall_mem_cons, List.forall_mem_append]
  exact ⟨hfresh (by simp [pairSides]) (by simp [Role.all]) _ first,
    hfresh (by simp [pairSides]) (by simp [Role.all]) _ second,
    fun die hdie => hfresh (by simp [poolSides]) (by simp [Role.all]) die (pool die hdie),
    fun die hdie => hfresh (by simp [poolSides]) (by simp [Role.all]) die (other die hdie)⟩

/-- A Hope/Fear roll deals its pair and its pools. -/
theorem hopeFearTerm_dealt {advantage disadvantage : Operand} (modifiers : List Modifier)
    (hadvantage : Named P advantage) (hdisadvantage : Named P disadvantage) :
    Ensures Dealt (Excused setup P) (hopeFearTerm setup advantage disadvantage modifiers) := by
  have hpool : ∀ (role : String) (n : Nat),
      Ensures (fun dice => ∀ die ∈ dice, Fresh poolSides role die) (Excused setup P)
        (drawDice setup poolSides (some role) n) :=
    fun role n => drawDice_ensures (fun face => ⟨face, rfl⟩) n
  rw [hopeFearTerm_eq]
  refine .bind (resolveWithin_ensures hadvantage .advantage 0 setup.limits.dice) fun m _ => ?_
  refine .bind (resolveWithin_ensures hdisadvantage .disadvantage 0 setup.limits.dice) fun n _ => ?_
  refine noteIf_ensures _ ?_
  refine .bind (draw_ensures pairSides) fun hope _ => ?_
  refine .bind (draw_ensures pairSides) fun fear _ => ?_
  refine .bind (hpool Role.advantage m.toNat) fun helping hhelping => ?_
  refine .bind (hpool Role.disadvantage n.toNat) fun hindering hhindering => .pure ?_
  exact .intro ⟨hope, rfl⟩ ⟨fear, rfl⟩ hhelping hhindering rfl

/-- Whose pool a die belongs to, and that it is no success, shows in it from the draw on. -/
theorem Dealt.recounted {table : Bindings Int} {tally : Tally} (h : Dealt tally)
    (advantage disadvantage : Operand) (modifiers : List Modifier) :
    Recounted table (.hopeFear advantage disadvantage modifiers) tally := by
  have hsuccess : ∀ die ∈ tally.dice, die.success = false := h.forall_mem fun _ _ _ _ _ => rfl
  obtain ⟨first, second, pool, other, rfl⟩ := h
  have hpool := fun die hdie => (pool die hdie).role_eq
  have hother := fun die hdie => (other die hdie).role_eq
  refine ⟨[_], List.append_nil _,
    .cons (.hopeFear first.role_eq second.role_eq hpool hother hsuccess) .nil, ?_,
    by simp [Expr.terms, Expr.checks], nofun⟩
  exact congrArg some (worth_hopeFear first.role_eq second.role_eq hpool hother)

/-- **Rolls are recounted**: induction on the expression, for any room that is left.  And where a
    roll fails, it is excused. -/
theorem roll_recounts {expr : Expr} (h : NamedAll P expr) :
    ∀ room : Nat,
      Ensures (Recounted setup.table expr) (Excused setup P) (expr.roll setup room) := by
  induction expr with
  | number n => exact fun room => .pure ⟨[], rfl, .nil, rfl, by simp [Expr.terms], nofun⟩
  | named name =>
    intro room
    show Ensures _ _ (resolve setup (.named name) >>= fun n => pure ({ value := n } : Tally))
    refine .bind (resolve_ensures h) fun n hn => .pure ?_
    exact ⟨[], rfl, .nil, hn, by simp [Expr.terms], nofun⟩
  | dice count sides modifiers => exact fun room => diceTerm_ensures h.1 h.2.1 h.2.2
  | hopeFear advantage disadvantage modifiers =>
    intro room
    exact (hopeFearTerm_dealt modifiers h.1 h.2).mono fun _ hdealt => hdealt.recounted _ _ _
  | missing => exact h.elim
  | binary op left right ihl ihr =>
    intro room
    cases room with
    | zero => exact refuse_ensures .tooLong
    | succ room =>
      rw [roll_binary]
      refine .bind (ihl h.1 room) fun l hl => .bind (ihr h.2 room) fun r hr => ?_
      cases hvalue : op.apply l.value r.value with
      | ok value =>
        obtain ⟨ls, hls, hleft⟩ := hl
        obtain ⟨rs, hrs, hright⟩ := hr
        refine .pure ⟨ls ++ rs, ?_, hleft.binary hright hvalue⟩
        rw [List.flatten_append, hls, hrs]
        rfl
      | error hazard => exact refuse_ensures hazard
  | target inner comparison threshold ih =>
    intro room
    cases room with
    | zero => exact refuse_ensures .tooLong
    | succ room =>
      show Ensures _ _ (inner.roll setup room >>= fun tally =>
        resolve setup threshold >>= fun n => pure (tally.check comparison n))
      refine .bind (ih h.1 room) fun tally htally => ?_
      refine .bind (resolve_ensures h.2) fun n _ => .pure ?_
      obtain ⟨blocks, hblocks, hinner⟩ := htally
      exact ⟨blocks, hblocks, hinner.fit, hinner.calculated, hinner.uncounted, hinner.counted⟩

/-- What a roll came to is recounted from the dice it left. -/
theorem recounted_of_roll {expr : Expr} {room : Nat} {before after : Ledger} {tally : Tally}
    (h : expr.roll setup room before = .ok tally after) : Recounted setup.table expr tally :=
  (roll_recounts (namedAll_of_roll_eq_ok _ _ _ _ h) room).value h

end Rolling

end Tabletop
