/-
  **Conservation**: how many dice a term leaves, and which marks can stand together on one.

  1. Every die that was rerolled and every die that exploded brought one die more; selections and
     success checks bring none and take none away.  So the marks tell how many dice were drawn at
     first.
  2. A phase marks no die that is out of the count already.  So a die goes out once, by a reroll or
     by a selection, and only dice that still count explode or become successes.

  The first is a balance that each phase keeps (`Growth`), the second a property of single dice that
  goes on to hold when a phase marks them (`Ensures`); a term has both from its phases in a row.
-/
import Mathlib.Data.List.MinMax
import Tabletop.Proofs.Rolling.Effort
import Tabletop.Proofs.Rolling.Selection
import Tabletop.Proofs.Rolling.Terms

namespace Tabletop

/-! ## Marks -/

/-- The die has none of the four marks. -/
structure Die.Unmarked (die : Die) : Prop where
  exploded : die.exploded = false
  dropped : die.dropped = false
  rerolled : die.rerolled = false
  success : die.success = false

/-- The marks of the die can stand together. -/
structure Die.Coherent (die : Die) : Prop where
  once : ¬ (die.dropped = true ∧ die.rerolled = true)
  rerolled : die.rerolled = true → die.exploded = false ∧ die.success = false
  success : die.success = true → die.active = true

/-- The flags of a die without marks fit together. -/
theorem Die.Unmarked.coherent {die : Die} (h : die.Unmarked) : die.Coherent := by
  obtain ⟨hexploded, hdropped, hrerolled, hsuccess⟩ := h
  constructor <;> simp [hdropped, hrerolled, hsuccess]

namespace Die.Coherent

variable {die : Die}

/-- A die in the count is rerolled before anything else has happened to it. -/
theorem reroll (hactive : die.active = true) (hexploded : die.exploded = false)
    (hsuccess : die.success = false) : ({ die with rerolled := true } : Die).Coherent := by
  obtain ⟨hdropped, -⟩ := Die.active_iff.mp hactive
  constructor <;> simp [hdropped, hexploded, hsuccess]

/-- A die in the count stays there when it explodes. -/
theorem explode (h : die.Coherent) (hactive : die.active = true) :
    ({ die with exploded := true } : Die).Coherent := by
  obtain ⟨hdropped, hrerolled⟩ := Die.active_iff.mp hactive
  exact ⟨h.once, fun hgone => by simp [hrerolled] at hgone, h.success⟩

/-- A die in the count is dropped before it can be a success. -/
theorem drop (hactive : die.active = true) (hsuccess : die.success = false) :
    ({ die with dropped := true } : Die).Coherent := by
  obtain ⟨-, hrerolled⟩ := Die.active_iff.mp hactive
  constructor <;> simp [hrerolled, hsuccess]

/-- A die in the count may be a success. -/
theorem succeed (h : die.Coherent) (hactive : die.active = true) :
    ({ die with success := true } : Die).Coherent := by
  obtain ⟨-, hrerolled⟩ := Die.active_iff.mp hactive
  exact ⟨h.once, fun hgone => by simp [hrerolled] at hgone, fun _ => hactive⟩

end Die.Coherent

/-- The dice lie as before, and as many of them were rerolled or exploded. -/
structure Unaltered (before after : List Die) : Prop where
  length : after.length = before.length
  rerolled : after.countP (·.rerolled) = before.countP (·.rerolled)
  exploded : after.countP (·.exploded) = before.countP (·.exploded)

namespace Unaltered

theorem refl (dice : List Die) : Unaltered dice dice := ⟨rfl, rfl, rfl⟩

/-- Dice that are left unaltered twice are left unaltered. -/
theorem trans {first second third : List Die} (h : Unaltered first second)
    (h' : Unaltered second third) : Unaltered first third :=
  ⟨h'.length.trans h.length, h'.rerolled.trans h.rerolled, h'.exploded.trans h.exploded⟩

/-- A selection drops dice, and leaves all else as it is. -/
theorem select (action : SelectionAction) (extreme : Extreme) (count : Nat) (dice : List Die) :
    Unaltered dice (action.apply extreme count dice) :=
  ⟨length_dropAt _ dice, countP_dropAt (fun _ => rfl) _ dice, countP_dropAt (fun _ => rfl) _ dice⟩

end Unaltered

/-- What the dice of a term have in common when all phases are over.

    `length`: each reroll and each explosion brought one die.  `active`: of the dice drawn at first
    and those that explosions brought, selections alone can leave fewer in the count. -/
inductive Conserved (table : Bindings Int) : Expr → List Die → Prop where
  | dice {count : Operand} {sides : Sides Operand} {modifiers : List Modifier} {block : List Die}
      {n : Nat} (number : count.value? table = some (n : Int))
      (size : ∀ die ∈ block, sides.value? table = some die.sides ∧ die.role = none)
      (coherent : ∀ die ∈ block, die.Coherent)
      (length : block.length = n + block.countP (·.rerolled) + block.countP (·.exploded))
      (active : Modifier.selections modifiers = [] →
        block.countP (·.active) = n + block.countP (·.exploded)) :
      Conserved table (.dice count sides modifiers) block
  | hopeFear {advantage disadvantage : Operand} {modifiers : List Modifier} {block : List Die}
      (role : ∀ die ∈ block, die.role ≠ none) (unmarked : ∀ die ∈ block, die.Unmarked) :
      Conserved table (.hopeFear advantage disadvantage modifiers) block

namespace Rolling

/-! ## Success checks -/

theorem countP_markSuccesses {p : Die → Bool}
    (hp : ∀ die, p { die with success := true } = p die) (values : List (Comparison × Int))
    (dice : List Die) : (markSuccesses values dice).countP p = dice.countP p := by
  refine countP_map_of_eq (fun die => ?_) dice
  split
  · exact hp die
  · rfl

/-- Marking successes leaves all else as it is. -/
theorem unaltered_markSuccesses (values : List (Comparison × Int)) (dice : List Die) :
    Unaltered dice (markSuccesses values dice) :=
  ⟨List.length_map _, countP_markSuccesses (fun _ => rfl) values dice,
    countP_markSuccesses (fun _ => rfl) values dice⟩

/-- What holds of dice and goes on to hold of those that become successes. -/
theorem forall_mem_markSuccesses {p : Die → Prop} {dice : List Die} (hdice : ∀ die ∈ dice, p die)
    (hmark : ∀ die, p die → die.active = true → p { die with success := true })
    (values : List (Comparison × Int)) : ∀ die ∈ markSuccesses values dice, p die := by
  intro die hdie
  obtain ⟨before, hbefore, rfl⟩ := List.mem_map.mp hdie
  split
  · next hmarks => exact hmark before (hdice before hbefore) (Bool.and_eq_true_iff.mp hmarks).1
  · exact hdice before hbefore

/-- Without success checks, none is marked. -/
theorem markSuccesses_nil (dice : List Die) : markSuccesses [] dice = dice := by
  simp [markSuccesses]

variable {setup : Setup}

/-- Counting up does no more to the dice than to mark successes. -/
theorem countUp_marks (checks : List SuccessCheck) (dice : List Die) :
    Ensures (fun tally => ∃ values, tally.dice = markSuccesses values dice)
      (Excused setup fun _ => True) (countUp setup checks dice) := by
  refine .ite (fun _ => .pure ⟨[], (markSuccesses_nil dice).symm⟩) fun _ => ?_
  refine .bind (resolveChecks_ensures checks fun m _ => named_any _) fun values _ => ?_
  exact .pure ⟨values, rfl⟩

/-! ## Dice terms -/

/-- Before the selections, too, `n` dice count beside those that explosions brought. -/
structure Balanced (table : Bindings Int) (sides : Sides Operand) (n : Nat) (dice : List Die) :
    Prop where
  sound : ∀ die ∈ dice, Unchecked table sides die ∧ die.Coherent
  length : dice.length = n + dice.countP (·.rerolled) + dice.countP (·.exploded)
  active : dice.countP (·.active) = n + dice.countP (·.exploded)

variable {table : Bindings Int} {sides : Sides Operand} {size : Sides Int} {n : Nat}

theorem countP_exploded {dice : List Die} (h : ∀ die ∈ dice, die.exploded = false) :
    dice.countP (·.exploded) = 0 := by
  rw [List.countP_eq_zero]
  exact fun die hdie => by simp [h die hdie]

/-- Dice that are drawn are as many as are asked for, and balanced. -/
theorem drawDice_balanced (hsize : sides.value? table = some size) (n : Nat) :
    Ensures (fun dice => Balanced table sides n dice ∧ ∀ die ∈ dice, die.exploded = false)
      (Excused setup fun _ => True) (drawDice setup size none n) := by
  have hdrawn : Ensures (fun dice => ∀ die ∈ dice, Unchecked table sides die ∧ die.Unmarked)
      (Excused setup fun _ => True) (drawDice setup size none n) :=
    drawDice_ensures (fun face => ⟨⟨hsize, rfl, rfl⟩, rfl, rfl, rfl, rfl⟩) n
  refine ((drawDice_asks (B := fun _ => True) trivial none n).ensures hdrawn).mono ?_
  rintro dice ⟨⟨_, -, hlength⟩, hdice⟩
  have hexploded : ∀ die ∈ dice, die.exploded = false := fun die hdie => (hdice die hdie).2.exploded
  have hrerolled : dice.countP (·.rerolled) = 0 := by
    rw [List.countP_eq_zero]
    exact fun die hdie => by simp [(hdice die hdie).2.rerolled]
  have hactive : dice.countP (·.active) = dice.length := by
    rw [List.countP_eq_length]
    exact fun die hdie =>
      Die.active_iff.mpr ⟨(hdice die hdie).2.dropped, (hdice die hdie).2.rerolled⟩
  refine ⟨⟨fun die hdie => ⟨(hdice die hdie).1, (hdice die hdie).2.coherent⟩, ?_, ?_⟩, hexploded⟩
  · rw [hrerolled, countP_exploded hexploded]
    omega
  · rw [hactive, countP_exploded hexploded]
    omega

/-- No die explodes before all rerolls are over. -/
theorem applyRerolls_balanced (hsize : sides.value? table = some size) (rerolls : List Reroll)
    (spare : Nat) {dice : List Die} (h : Balanced table sides n dice)
    (hexploded : ∀ die ∈ dice, die.exploded = false) :
    Ensures (fun r => Balanced table sides n r.1)
      (Excused setup fun _ => True) (applyRerolls setup size rerolls spare dice) := by
  have hrerolled : Ensures
      (fun r => ∀ die ∈ r.1, (Unchecked table sides die ∧ die.Coherent) ∧ die.exploded = false)
      (Excused setup fun _ => True) (applyRerolls setup size rerolls spare dice) := by
    refine applyRerolls_ensures (fun face => ?_) (fun die hdie hactive => ?_) rerolls
      (fun m _ => named_any _) spare dice fun die hdie => ⟨h.sound die hdie, hexploded die hdie⟩
    · exact ⟨⟨⟨hsize, rfl, rfl⟩, Die.Unmarked.coherent ⟨rfl, rfl, rfl, rfl⟩⟩, rfl⟩
    · obtain ⟨⟨hunchecked, -⟩, hunexploded⟩ := hdie
      have hcoherent := Die.Coherent.reroll hactive hunexploded hunchecked.unmarked
      exact ⟨⟨⟨hunchecked.size, hunchecked.role, hunchecked.unmarked⟩, hcoherent⟩, hunexploded⟩
  refine ((applyRerolls_asks (B := fun _ => True) trivial rerolls spare dice).ensures
    hrerolled).mono ?_
  rintro r ⟨⟨_, -, hreplaced⟩, hdice⟩
  have hbefore := countP_exploded hexploded
  have hafter := countP_exploded fun die hdie => (hdice die hdie).2
  -- As many dice count as before, and each mark brought one die.
  obtain ⟨hactive, hlength⟩ := hreplaced
  obtain ⟨-, hlength', hactive'⟩ := h
  exact ⟨fun die hdie => (hdice die hdie).1, by omega, by omega⟩

/-- Each die that explodes brings another one, so the balance is kept: induction on the modifiers.
    -/
theorem applyExplosions_balanced (hsize : sides.value? table = some size)
    (explosions : List Explosion) {dice : List Die} (h : Balanced table sides n dice) :
    Ensures (Balanced table sides n) (Excused setup fun _ => True)
      (applyExplosions setup size explosions 0 dice) := by
  -- How many explosions there may be is of no account here.
  obtain ⟨limit, hlimit⟩ : ∃ limit : Nat,
      ∀ m ∈ explosions, m.limit.getD setup.limits.explosions ≤ limit := by
    let allowed (m : Explosion) : Nat := (m.limit.getD setup.limits.explosions).toNat
    refine ⟨(explosions.map allowed).foldr max 0, fun m hm => ?_⟩
    have hle := List.le_max_of_le' 0 (List.mem_map_of_mem (f := allowed) hm) (Nat.le_refl _)
    exact Int.toNat_le.mp hle
  have hexploded : Ensures (fun r => ∀ die ∈ r, Unchecked table sides die ∧ die.Coherent)
      (Excused setup fun _ => True) (applyExplosions setup size explosions 0 dice) := by
    refine applyExplosions_ensures (fun face => ?_) (fun die hdie hactive _ => ?_) explosions
      (fun m _ x _ => named_any x) 0 dice h.sound
    · exact ⟨⟨hsize, rfl, rfl⟩, Die.Unmarked.coherent ⟨rfl, rfl, rfl, rfl⟩⟩
    · obtain ⟨hunchecked, hcoherent⟩ := hdie
      exact ⟨⟨hunchecked.size, hunchecked.role, hunchecked.unmarked⟩, hcoherent.explode hactive⟩
  refine ((applyExplosions_asks (B := fun _ => True) trivial explosions hlimit 0 dice).ensures
    hexploded).mono ?_
  rintro r ⟨⟨_, -, hextended⟩, hdice⟩
  obtain ⟨hlength, hactive, hrerolled⟩ := hextended
  obtain ⟨-, hlength', hactive'⟩ := h
  exact ⟨hdice, by omega, by omega⟩

/-- Selections take dice out of the count; the balance of all dice stays. -/
theorem applySelections_balanced (selections : List Selection) {dice : List Die}
    (h : Balanced table sides n dice) :
    Ensures (fun r => ((∀ die ∈ r, Unchecked table sides die ∧ die.Coherent) ∧
        Unaltered dice r) ∧ (selections = [] → r = dice))
      (Excused setup fun _ => True) (applySelections setup selections dice) := by
  refine applySelections_keeps ?_ selections (fun m _ => named_any _) dice ⟨h.sound, .refl dice⟩
  rintro action extreme count mid ⟨hsound, hunaltered⟩
  refine ⟨?_, hunaltered.trans (.select action extreme count mid)⟩
  refine action.forall_mem_apply hsound (fun die hdie hactive => ?_) extreme count
  exact ⟨⟨hdie.1.size, hdie.1.role, hdie.1.unmarked⟩, .drop hactive hdie.1.unmarked⟩

/-- The phases in a row: each hands on the balance of the one before. -/
theorem diceTerm_conserves (count : Operand) (sides : Sides Operand) (modifiers : List Modifier) :
    Ensures (fun tally => Conserved setup.table (.dice count sides modifiers) tally.dice)
      (Excused setup fun _ => True) (diceTerm setup count sides modifiers) := by
  unfold diceTerm
  refine .bind (resolveWithin_ensures (named_any count) .dice 1 setup.limits.dice) ?_
  rintro number ⟨hnumber, hpositive, -⟩
  refine .bind (resolveSides_within sides) ?_
  rintro size ⟨hsize, -⟩
  refine .bind (drawDice_balanced hsize number.toNat) ?_
  rintro first ⟨hfirst, hfresh⟩
  refine .bind (applyRerolls_balanced hsize _ _ hfirst hfresh) ?_
  rintro ⟨rerolled, spare⟩ hrerolled
  refine .bind (applyExplosions_balanced hsize _ hrerolled) fun exploded hexploded => ?_
  refine .bind (applySelections_balanced _ hexploded) ?_
  rintro selected ⟨⟨hsound, hunaltered⟩, hunselected⟩
  refine .bind (countUp_marks _ selected) ?_
  rintro tally ⟨values, hdice⟩
  refine .bind (note_ensures _) fun _ _ => .pure ?_
  have hmarked := unaltered_markSuccesses values selected
  have hall : ∀ die ∈ markSuccesses values selected,
      (sides.value? setup.table = some die.sides ∧ die.role = none) ∧ die.Coherent :=
    forall_mem_markSuccesses (fun die hdie =>
      ⟨⟨(hsound die hdie).1.size, (hsound die hdie).1.role⟩, (hsound die hdie).2⟩)
      (fun die hdie hactive => ⟨hdie.1, hdie.2.succeed hactive⟩) values
  have hnat : count.value? setup.table = some (number.toNat : Int) := by
    rw [hnumber, Int.toNat_of_nonneg (by omega)]
  rw [hdice]
  -- The number of all dice goes through the selections; of those that count it does if there are
  -- no selections.
  refine .dice hnat (fun die hdie => (hall die hdie).1) (fun die hdie => (hall die hdie).2) ?_ ?_
  · rw [hmarked.length, hmarked.rerolled, hmarked.exploded, hunaltered.length,
      hunaltered.rerolled, hunaltered.exploded]
    exact hexploded.length
  · intro hnone
    rw [countP_markSuccesses (fun _ => rfl), hmarked.exploded, hunselected hnone]
    exact hexploded.active

/-! ## Hope and Fear -/

/-- A Hope/Fear roll has its pair and the dice of its pools, with their sizes and roles. -/
theorem hopeFearTerm_conserves (advantage disadvantage : Operand) (modifiers : List Modifier) :
    Ensures (fun tally =>
        Conserved setup.table (.hopeFear advantage disadvantage modifiers) tally.dice)
      (Excused setup fun _ => True) (hopeFearTerm setup advantage disadvantage modifiers) := by
  refine (hopeFearTerm_dealt modifiers (named_any _) (named_any _)).mono fun tally hdealt => ?_
  have hall : ∀ die ∈ tally.dice, die.role ≠ none ∧ die.Unmarked :=
    hdealt.forall_mem fun _ _ _ _ _ => ⟨nofun, rfl, rfl, rfl, rfl⟩
  exact .hopeFear (fun die hdie => (hall die hdie).1) fun die hdie => (hall die hdie).2

/-! ## Expressions -/

/-- The blocks that the terms of an expression left are conserved. -/
theorem conserved_of_leftBy {expr : Expr} {blocks : List (List Die)}
    (h : List.Forall₂ (LeftBy setup) expr.terms blocks) :
    List.Forall₂ (fun term block => LeftBy setup term block ∧ Conserved setup.table term block)
      expr.terms blocks := by
  refine (List.forall₂_and_left _ _ |>.mpr ⟨fun term => term_of_mem_terms, h⟩).imp ?_
  rintro term block ⟨hterm, hleft⟩
  refine ⟨hleft, ?_⟩
  obtain ⟨room, before, after, tally, hroll, rfl⟩ := hleft
  rcases hterm with ⟨count, sides, modifiers, rfl⟩ | ⟨m, n, modifiers, rfl⟩
  · exact (diceTerm_conserves count sides modifiers).value hroll
  · exact (hopeFearTerm_conserves m n modifiers).value hroll

end Rolling

/-- No die of a term has marks that cannot stand together, and one with a role has none. -/
theorem Conserved.marks {table : Bindings Int} {term : Expr} {block : List Die}
    (h : Conserved table term block) :
    ∀ die ∈ block, die.Coherent ∧ (die.role ≠ none → die.Unmarked) := by
  intro die hdie
  cases h with
  | dice _ size coherent _ _ =>
    exact ⟨coherent die hdie, fun hrole => absurd (size die hdie).2 hrole⟩
  | hopeFear _ unmarked => exact ⟨(unmarked die hdie).coherent, fun _ => unmarked die hdie⟩

end Tabletop
