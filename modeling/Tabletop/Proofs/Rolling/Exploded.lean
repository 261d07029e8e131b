/-
  Explosions: which dice explode.

  1. **In list order** — the scan reaches the dice in the order of the list that it leaves, those it
     brought itself included, and stops when no explosion is left.  So the dice that exploded are
     the first ones of that list that may, as many as the limit allows (`explodeFirst`).
  2. **Counts** — each die that explodes brings one die, and the limit is noted just when it was
     used up: the die that the last explosion brought is still ahead then.
  3. **Several modifiers** — the explosions are counted on from one to the next, so together they
     are no more than the largest limit allows.
-/
import Mathlib
import Tabletop.Proofs.Rolling.Yields

namespace Tabletop

/-- The face that an explosion compares with, where it has one: without a threshold the largest one
    of the die. -/
def Explosion.face? (table : Bindings Int) (sides : Sides Int) (explosion : Explosion) :
    Option Int :=
  match explosion.threshold with
  | none => some sides.maxFace
  | some operand => operand.value? table

/-- The limit that is in force for an explosion. -/
def Explosion.limitIn (limits : Limits) (explosion : Explosion) : Int :=
  explosion.limit.getD limits.explosions

/-- The largest limit that is in force for one of the explosions; zero if there is none. -/
def largestLimit (limits : Limits) (explosions : List Explosion) : Nat :=
  (explosions.map fun m => (m.limitIn limits).toNat).foldr max 0

namespace Die

/-- The die stays as it is, or it is marked as exploded. -/
def MayExplode (die after : Die) : Prop := after = die ∨ after = { die with exploded := true }

/-- A die that may explode twice may explode. -/
theorem MayExplode.trans {die after final : Die} (h : die.MayExplode after)
    (h' : after.MayExplode final) : die.MayExplode final := by
  obtain rfl | rfl := h
  · exact h'
  · exact Or.inr (h'.elim id id)

end Die

/-! ## The dice that explode -/

/-- What one explosion makes of dice, and of the dice that it brings.

    `same`: being exploded is all that can change.  `first`: of the dice that count and meet the
    condition, in list order, the first ones exploded, as many as the limit allows, and no other die
    did.  `brought`: each die that exploded brought one. -/
structure Explodes (meets : Int → Bool) (limit : Nat) (dice extra after : List Die) : Prop where
  same : List.Forall₂ Die.MayExplode (dice ++ extra) after
  first : after.zipIdx.filter (·.1.exploded) =
    (after.zipIdx.filter (·.1.fits meets)).take limit
  brought : extra.length = after.countP (·.exploded)

/-- Marks the first dice that may explode, so many at most. -/
def explodeFirst (meets : Int → Bool) : Nat → List Die → List Die
  | 0, dice => dice
  | _, [] => []
  | n + 1, die :: rest =>
    if die.active && !die.exploded && meets die.face then
      { die with exploded := true } :: explodeFirst meets n rest
    else die :: explodeFirst meets (n + 1) rest

section Marks

variable {meets : Int → Bool}

theorem explodeFirst_nil (n : Nat) : explodeFirst meets n [] = [] := by
  cases n <;> rfl

theorem explodeFirst_cons (n : Nat) (die : Die) (rest : List Die) :
    explodeFirst meets (n + 1) (die :: rest) =
      if die.active && !die.exploded && meets die.face then
        { die with exploded := true } :: explodeFirst meets n rest
      else die :: explodeFirst meets (n + 1) rest :=
  rfl

/-- Nothing but the marks of explosions changes. -/
theorem explodeFirst_mayExplode (n : Nat) (dice : List Die) :
    List.Forall₂ Die.MayExplode dice (explodeFirst meets n dice) := by
  induction dice generalizing n with
  | nil => rw [explodeFirst_nil]; exact .nil
  | cons die rest ih =>
    cases n with
    | zero => exact List.forall₂_same.mpr fun _ _ => Or.inl rfl
    | succ n =>
      rw [explodeFirst_cons]
      split
      · exact .cons (Or.inr rfl) (ih n)
      · exact .cons (Or.inl rfl) (ih (n + 1))

/-- As many are marked as may explode, unless they are more than asked for. -/
theorem countP_exploded_explodeFirst (n : Nat) (dice : List Die) :
    (explodeFirst meets n dice).countP (·.exploded) = dice.countP (·.exploded) +
      min n (dice.countP fun die => die.active && !die.exploded && meets die.face) := by
  induction dice generalizing n with
  | nil => simp [explodeFirst_nil]
  | cons die rest ih =>
    cases n with
    | zero => simp [explodeFirst]
    | succ n =>
      rw [explodeFirst_cons, List.countP_cons, List.countP_cons]
      by_cases hmay : (die.active && !die.exploded && meets die.face) = true
      · have hfresh : die.exploded = false := by
          simp only [Bool.and_eq_true, Bool.not_eq_true'] at hmay
          exact hmay.1.2
        rw [if_pos hmay, if_pos hmay, List.countP_cons_of_pos rfl, ih, hfresh]
        simp only [Bool.false_eq_true, if_false]
        omega
      · rw [if_neg hmay, if_neg hmay, List.countP_cons, ih]
        omega

/-- In list order, those that are marked are the first ones that meet the condition.  Induction on
    the dice; the places are counted on from any number. -/
theorem exploded_explodeFirst {dice : List Die} (hfresh : ∀ die ∈ dice, die.exploded = false)
    (n place : Nat) :
    ((explodeFirst meets n dice).zipIdx place).filter (·.1.exploded) =
      (((explodeFirst meets n dice).zipIdx place).filter (·.1.fits meets)).take n := by
  induction dice generalizing n place with
  | nil => simp [explodeFirst_nil]
  | cons die rest ih =>
    obtain ⟨hdie, hrest⟩ := List.forall_mem_cons.mp hfresh
    cases n with
    | zero =>
      rw [List.take_zero, List.filter_eq_nil_iff]
      intro entry hentry
      have hmem : entry.1 ∈ die :: rest := List.fst_mem_of_mem_zipIdx hentry
      simp [hfresh entry.1 hmem]
    | succ n =>
      rw [explodeFirst_cons]
      by_cases hfits : die.fits meets = true
      · have hmay : (die.active && !die.exploded && meets die.face) = true := by
          rw [Die.fits, Bool.and_eq_true] at hfits
          simp [hdie, hfits]
        have hmarked : ({ die with exploded := true } : Die).fits meets = true := hfits
        rw [if_pos hmay, List.zipIdx_cons]
        simp only [List.filter_cons, hmarked, if_true, List.take_succ_cons, ih hrest]
      · have hmay : ¬ (die.active && !die.exploded && meets die.face) = true := by
          simpa [Die.fits, hdie] using hfits
        rw [if_neg hmay, List.zipIdx_cons]
        simp only [List.filter_cons, hdie, hfits, Bool.false_eq_true, if_false, ih hrest]

end Marks

theorem mayExplode_trans {dice after final : List Die}
    (h : List.Forall₂ Die.MayExplode dice after) (h' : List.Forall₂ Die.MayExplode after final) :
    List.Forall₂ Die.MayExplode dice final := by
  induction h generalizing final with
  | nil => exact h'
  | cons hdie _ ih =>
    cases h' with
    | cons hdie' hrest => exact .cons (hdie.trans hdie') (ih hrest)

namespace Rolling

variable {setup : Setup} {sides : Sides Int}

/-! ## One scan -/

/-- How far a scan with so many explosions left comes that brings those dice.

    `stopped`: when no explosion is left, a die is ahead; the one that the last explosion brought,
    if there were any left at first. -/
structure Scanned (meets : Int → Bool) (spare : Nat) (dice extra : List Die) (r : Scan) :
    Prop where
  marked : r.passed ++ r.ahead = explodeFirst meets spare (dice ++ extra)
  spent : extra.length + r.spare = spare
  all : extra.length = min spare
    ((dice ++ extra).countP fun die => die.active && !die.exploded && meets die.face)
  stopped : r.spare = 0 → 0 < spare ∨ dice ≠ [] → r.ahead ≠ []

/-- As in the scan itself, either an explosion is spent or a die is passed: the induction is on the
    explosions left, and inside on the dice. -/
theorem scan_yields (meets : Int → Bool) (spare : Nat) :
    ∀ dice : List Die, Yields setup sides (fun r faces events =>
      Scanned meets spare dice (sides.dice faces) r ∧ events = [])
        (scan setup sides meets spare dice) := by
  induction spare with
  | zero =>
    intro dice
    rw [scan_zero]
    exact .pure ⟨⟨by simp [explodeFirst, Sides.dice], rfl, by simp [Sides.dice], by simp⟩, rfl⟩
  | succ left ihspare =>
    intro dice
    induction dice with
    | nil =>
      rw [scan_nil]
      exact .pure ⟨⟨rfl, by simp [Sides.dice], by simp [Sides.dice], by simp⟩, rfl⟩
    | cons die rest ihrest =>
      rw [scan_cons]
      refine .ite (fun hmay => ?_) fun hmay => ?_
      · -- The extra die goes to the end, and one explosion fewer is left.
        refine .bind drawDie_yields fun extra faces events hdie => ?_
        obtain ⟨hextra, rfl⟩ := hdie
        refine .bind (ihspare (rest ++ [extra])) fun r more events hr => .pure ?_
        obtain ⟨⟨hmarked, hspent, hall, hstopped⟩, rfl⟩ := hr
        have hdice : sides.dice (faces ++ (more ++ [])) = extra :: sides.dice more := by
          rw [List.append_nil, Sides.dice, List.map_append]
          show sides.dice faces ++ _ = _
          rw [← hextra]
          rfl
        rw [List.append_assoc, List.singleton_append] at hmarked hall
        refine ⟨⟨?_, ?_, ?_, fun hspare _ => hstopped hspare (Or.inr (by simp))⟩, rfl⟩
        · rw [hdice, List.cons_append, List.cons_append, explodeFirst_cons, if_pos hmay, hmarked]
        · show (sides.dice _).length + r.spare = _
          rw [hdice, List.length_cons]
          omega
        · rw [hdice, List.cons_append, List.countP_cons, if_pos hmay, List.length_cons, hall]
          omega
      · refine .bind ihrest fun r faces events hr => .pure ?_
        obtain ⟨⟨hmarked, hspent, hall, hstopped⟩, rfl⟩ := hr
        rw [List.append_nil]
        refine ⟨⟨?_, hspent, ?_, fun hspare _ => hstopped hspare (Or.inl (Nat.succ_pos left))⟩, rfl⟩
        · rw [List.cons_append, List.cons_append, explodeFirst_cons, if_neg hmay, hmarked]
        · rw [List.cons_append, List.countP_cons, if_neg hmay]
          exact hall

/-- Each explosion marks a die. -/
theorem Scanned.exploded {meets : Int → Bool} {spare : Nat} {dice : List Die} {faces : List Int}
    {r : Scan} (h : Scanned meets spare dice (sides.dice faces) r) :
    (r.passed ++ r.ahead).countP (·.exploded) = dice.countP (·.exploded) + faces.length := by
  have hextra : (sides.dice faces).countP (·.exploded) = 0 := by
    rw [List.countP_eq_zero, Sides.dice]
    simp
  rw [h.marked, countP_exploded_explodeFirst, ← h.all, List.countP_append, hextra,
    Sides.length_dice, Nat.add_zero]

/-- The threshold of an explosion is its face, without dice and without an event. -/
theorem explosionThreshold_yields {m : Explosion} {face : Int}
    (h : m.face? setup.table sides = some face) :
    Yields setup sides (fun n faces events => n = face ∧ faces = [] ∧ events = [])
      (explosionThreshold setup sides m) := by
  cases hm : m.threshold with
  | none =>
    rw [Explosion.face?, hm] at h
    rw [explosionThreshold, hm]
    cases h
    exact .pure ⟨rfl, rfl, rfl⟩
  | some operand =>
    rw [Explosion.face?, hm] at h
    rw [explosionThreshold, hm]
    exact resolve_yields h

/-! ## One modifier after the other -/

/-- Behind a modifier go on those that follow, with what it left and its explosions counted. -/
theorem applyExplosions_cons_yields {m : Explosion} {face : Int}
    (hface : m.face? setup.table sides = some face) {rest : List Explosion} {count : Nat}
    {dice : List Die} {S : List Die → List Int → List Event → Prop}
    (hrest : ∀ r faces, Scanned (m.comparison.holds · face) (m.limitIn setup.limits - count).toNat
        dice (sides.dice faces) r →
      Yields setup sides (fun after more events => S after (faces ++ more)
          ((if r.spare = 0 ∧ r.ahead ≠ [] then [.explosionLimit (m.limitIn setup.limits)] else [])
            ++ events))
        (applyExplosions setup sides rest (count + faces.length) (r.passed ++ r.ahead))) :
    Yields setup sides S (applyExplosions setup sides (m :: rest) count dice) := by
  rw [applyExplosions_cons]
  refine .bind (explosionThreshold_yields hface) fun n none events hn => ?_
  obtain ⟨rfl, rfl, rfl⟩ := hn
  refine .bind (scan_yields _ _ dice) fun r faces events hr => ?_
  obtain ⟨hscanned, rfl⟩ := hr
  have hcount : (m.limitIn setup.limits - count).toNat - r.spare = faces.length := by
    have hspent := hscanned.spent
    rw [Sides.length_dice] at hspent
    exact Nat.sub_eq_of_eq_add hspent.symm
  have hgoes := hrest r faces hscanned
  rw [← hcount] at hgoes
  refine .ite (fun hend => .bind (note_yields _) fun _ none events hnoted => ?_) fun hend => ?_
  · obtain ⟨rfl, rfl⟩ := hnoted
    rw [if_pos hend] at hgoes
    exact hgoes
  · rw [if_neg hend] at hgoes
    exact hgoes

/-- Induction on the modifiers: each starts with the explosions that happened before. -/
theorem applyExplosions_yields {ms : List Explosion}
    (h : ∀ m ∈ ms, ∃ face, m.face? setup.table sides = some face) (count : Nat)
    (dice : List Die) :
    Yields setup sides (fun after faces _ =>
        List.Forall₂ Die.MayExplode (dice ++ sides.dice faces) after ∧
          after.countP (·.exploded) = dice.countP (·.exploded) + faces.length ∧
            count + faces.length ≤ max count (largestLimit setup.limits ms))
      (applyExplosions setup sides ms count dice) := by
  induction ms generalizing count dice with
  | nil =>
    refine .pure ⟨?_, rfl, Nat.le_max_left _ _⟩
    rw [Sides.dice, List.map_nil, List.append_nil]
    exact List.forall₂_same.mpr fun _ _ => Or.inl rfl
  | cons m rest ih =>
    obtain ⟨⟨face, hface⟩, hrest⟩ := List.forall_mem_cons.mp h
    refine applyExplosions_cons_yields hface fun r faces hr => ?_
    -- What this modifier left is what the others begin with.
    refine (ih hrest (count + faces.length) (r.passed ++ r.ahead)).mono fun after more _ hmore => ?_
    obtain ⟨hsame, hexploded, hbound⟩ := hmore
    have hlength := sides.length_dice faces
    have hspent := hr.spent
    have hlargest : largestLimit setup.limits (m :: rest) =
        max (m.limitIn setup.limits).toNat (largestLimit setup.limits rest) := rfl
    refine ⟨?_, ?_, ?_⟩
    · have hscan :
          List.Forall₂ Die.MayExplode (dice ++ sides.dice faces) (r.passed ++ r.ahead) := by
        rw [hr.marked]
        exact explodeFirst_mayExplode _ _
      have hmore : List.Forall₂ Die.MayExplode (sides.dice more) (sides.dice more) :=
        List.forall₂_same.mpr fun _ _ => Or.inl rfl
      rw [Sides.dice, List.map_append, ← List.append_assoc]
      exact mayExplode_trans (List.rel_append hscan hmore) hsame
    · rw [hexploded, hr.exploded, List.length_append, Nat.add_assoc]
    · rw [hlargest, List.length_append]
      omega

/-- **Explosions.**  If no die has exploded before, one modifier explodes the first dice of the list
    that it leaves that count and meet its condition, as many as its limit allows; the list that it
    leaves is the one that was there with one die behind it for each of these, as drawn, and the
    limit is noted just when it was reached.  Any number of modifiers append as many dice as they
    mark, and no more than the largest of their limits. -/
theorem applyExplosions_explodes (setup : Setup) (sides : Sides Int) (dice : List Die) :
    (∀ (m : Explosion) (face : Int) (limit : Nat), m.face? setup.table sides = some face →
      m.limitIn setup.limits = limit → 1 ≤ limit → (∀ die ∈ dice, die.exploded = false) →
        Yields setup sides (fun after faces events =>
            Explodes (m.comparison.holds · face) limit dice (sides.dice faces) after ∧
              events = if after.countP (·.exploded) = limit then [.explosionLimit limit] else [])
          (applyExplosions setup sides [m] 0 dice)) ∧
      ∀ ms : List Explosion, (∀ m ∈ ms, ∃ face, m.face? setup.table sides = some face) →
        Yields setup sides (fun after faces _ =>
            List.Forall₂ Die.MayExplode (dice ++ sides.dice faces) after ∧
              after.countP (·.exploded) = dice.countP (·.exploded) + faces.length ∧
                faces.length ≤ largestLimit setup.limits ms)
          (applyExplosions setup sides ms 0 dice) := by
  constructor
  · intro m face limit hface hlimit hpos hfresh
    refine applyExplosions_cons_yields hface fun r faces hr => ?_
    have hspare : (m.limitIn setup.limits - (0 : Nat)).toNat = limit := by
      rw [hlimit]
      omega
    rw [hspare] at hr
    have hnone : dice.countP (·.exploded) = 0 :=
      List.countP_eq_zero.mpr fun die hdie => by simp [hfresh die hdie]
    have hcount : (r.passed ++ r.ahead).countP (·.exploded) = faces.length := by
      rw [hr.exploded, hnone, Nat.zero_add]
    -- Once all explosions are spent there is a die ahead, at least the one that came last.
    have hreached : r.spare = 0 ∧ r.ahead ≠ [] ↔ faces.length = limit := by
      have hlength := sides.length_dice faces
      have hspent := hr.spent
      constructor
      · omega
      · intro hall
        have hspare : r.spare = 0 := by omega
        exact ⟨hspare, hr.stopped hspare (Or.inl hpos)⟩
    have hdice : ∀ die ∈ dice ++ sides.dice faces, die.exploded = false := by
      rw [List.forall_mem_append]
      refine ⟨hfresh, ?_⟩
      simp [Sides.dice]
    refine .pure ⟨?_, ?_⟩
    · rw [List.append_nil]
      refine ⟨?_, ?_, (sides.length_dice faces).trans hcount.symm⟩
      · rw [hr.marked]
        exact explodeFirst_mayExplode _ _
      · rw [hr.marked]
        exact exploded_explodeFirst hdice _ 0
    · rw [List.append_nil, hcount, hlimit]
      simp only [hreached]
  · intro ms h
    refine (applyExplosions_yields h 0 dice).mono fun after faces _ hfaces => ?_
    obtain ⟨hsame, hexploded, hbound⟩ := hfaces
    exact ⟨hsame, hexploded, by omega⟩

/-- The limit of two is used up by the second die and by the one that it brings; the first die is
    out of the count, and the last one comes too late. -/
theorem applyExplosions_explodes_chain :
    ∃ setup dice after ledger,
      setup = Setup.mk (Source.cycle #[6, 6, 1]) {} [("T", 6)] 9 ∧
      dice = [⟨.faces 6, 6, false, true, false, false, none⟩,
        ⟨.faces 6, 6, false, false, false, false, none⟩,
        ⟨.faces 6, 2, false, false, false, false, none⟩] ∧
      Yields setup (.faces 6) (fun after faces events =>
          Explodes (Comparison.ge.holds · 6) 2 dice (Sides.dice (.faces 6) faces) after ∧
            events = if after.countP (·.exploded) = 2 then [.explosionLimit 2] else [])
        (applyExplosions setup (.faces 6) [⟨.ge, some (.named "T"), some 2⟩] 0 dice) ∧
      applyExplosions setup (.faces 6) [⟨.ge, some (.named "T"), some 2⟩] 0 dice {} =
        .ok after ledger ∧
      after.map (·.face) = [6, 6, 2, 6, 6] ∧
      after.map (·.exploded) = [false, true, false, true, false] ∧
      ledger.events = #[.explosionLimit 2] ∧
      Yields setup (.faces 6) (fun after faces _ =>
          List.Forall₂ Die.MayExplode (dice ++ Sides.dice (.faces 6) faces) after ∧
            after.countP (·.exploded) = dice.countP (·.exploded) + faces.length ∧
              faces.length ≤ largestLimit setup.limits
                [⟨.ge, some (.named "T"), some 2⟩, ⟨.lt, some (.number 3), some 3⟩])
        (applyExplosions setup (.faces 6)
          [⟨.ge, some (.named "T"), some 2⟩, ⟨.lt, some (.number 3), some 3⟩] 0 dice) := by
  generalize hsetup : Setup.mk (Source.cycle #[6, 6, 1]) {} [("T", 6)] 9 = setup
  generalize hdice : [Die.mk (.faces 6) 6 false true false false none,
    ⟨.faces 6, 6, false, false, false, false, none⟩,
    ⟨.faces 6, 2, false, false, false, false, none⟩] = dice
  have htable : (Explosion.mk .ge (some (.named "T")) (some 2)).face? setup.table (.faces 6) =
      some 6 := by
    subst hsetup
    rfl
  obtain ⟨hone, hseveral⟩ := applyExplosions_explodes setup (.faces 6) dice
  have hfresh : ∀ die ∈ dice, die.exploded = false := by
    subst hdice
    decide
  refine ⟨setup, dice,
    [⟨.faces 6, 6, false, true, false, false, none⟩,
      ⟨.faces 6, 6, true, false, false, false, none⟩,
      ⟨.faces 6, 2, false, false, false, false, none⟩,
      ⟨.faces 6, 6, true, false, false, false, none⟩,
      ⟨.faces 6, 6, false, false, false, false, none⟩],
    ⟨#[6, 6], [("T", 6)], #[.explosionLimit 2]⟩, rfl, rfl,
    hone _ 6 2 htable rfl (by decide) hfresh, ?_, rfl, rfl, rfl, hseveral _ ?_⟩
  · subst hsetup hdice
    cbv
  · rw [List.forall_mem_cons, List.forall_mem_singleton]
    exact ⟨⟨6, htable⟩, 3, rfl⟩

end Rolling

end Tabletop
