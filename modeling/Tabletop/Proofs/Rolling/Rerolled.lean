/-
  Rerolls: which dice are replaced, and by what.

  1. **Chases** — a die that is replaced is followed by a chase: replacements that still met the
     condition, each marked and replaced in turn, and a last one that stays.  Each draw but the last
     of a chase is an extra one.
  2. **One modifier** — it marks the dice that count and meet its condition when it starts, and no
     other one that is there; behind them come the chases, one for each.
  3. **Several modifiers** — the extra draws are counted on from one to the next.  While some are
     left no chase is cut short, so that the last die of each does not meet the condition.
-/
import Mathlib
import Tabletop.Proofs.Rolling.Selection
import Tabletop.Proofs.Rolling.Yields

namespace Tabletop

/-! ## Chases -/

/-- The faces of the dice that replace one: those that were replaced in turn, and the last one. -/
structure Chase where
  passed : List Int
  last : Int

namespace Chase

/-- The faces in the order of drawing. -/
def faces (chase : Chase) : List Int := chase.passed ++ [chase.last]

/-- The dice in the order of drawing. -/
def dice (sides : Sides Int) (chase : Chase) : List Die :=
  chase.passed.map (fun face => { sides, face, rerolled := true }) ++
    [{ sides, face := chase.last }]

variable (sides : Sides Int) (chase : Chase)

/-- A chase has one die for each face. -/
theorem length_dice : (chase.dice sides).length = chase.faces.length := by
  simp [dice, faces]

/-- One die of a chase counts, the last one. -/
theorem countP_active_dice : (chase.dice sides).countP (·.active) = 1 := by
  simp [dice, Die.active, List.countP_append, List.countP_eq_zero]

/-- All dice of a chase but the last one were rerolled. -/
theorem countP_rerolled_dice :
    (chase.dice sides).countP (·.rerolled) = chase.passed.length := by
  simp [dice, List.countP_append]

end Chase

/-- The faces that chases draw. -/
def drawnBy (chases : List Chase) : List Int := chases.flatMap Chase.faces

/-- How many draws of chases are extra: each but the last of a chase. -/
def extraDraws (chases : List Chase) : Nat := (chases.map (·.passed.length)).sum

/-- A reroll of that mode may bring the chase: what is replaced in turn met the condition, and a
    reroll that is made once replaces no replacement. -/
structure Chase.Follows (mode : RerollMode) (meets : Int → Bool) (chase : Chase) : Prop where
  passed : ∀ face ∈ chase.passed, meets face = true
  once : mode = .once → chase.passed = []

/-- Chases have one die for each face that they draw. -/
theorem length_flatMap_dice (sides : Sides Int) (chases : List Chase) :
    (chases.flatMap (·.dice sides)).length = (drawnBy chases).length := by
  simp only [drawnBy, List.length_flatMap, Chase.length_dice]

/-- A chase draws one face, and the faces that it passed over besides. -/
theorem length_drawnBy (chases : List Chase) :
    (drawnBy chases).length = chases.length + extraDraws chases := by
  induction chases with
  | nil => rfl
  | cons chase rest ih =>
    rw [drawnBy, List.flatMap_cons, ← drawnBy, extraDraws, List.map_cons, List.sum_cons,
      ← extraDraws, List.length_append, ih, Chase.faces, List.length_append, List.length_singleton,
      List.length_cons]
    omega

/-- As many dice count as there are chases. -/
theorem countP_active_chases (sides : Sides Int) (chases : List Chase) :
    (chases.flatMap (·.dice sides)).countP (·.active) = chases.length := by
  induction chases with
  | nil => rfl
  | cons chase rest ih =>
    rw [List.flatMap_cons, List.countP_append, ih, Chase.countP_active_dice, List.length_cons,
      Nat.add_comm]

/-- As many dice were rerolled as faces were passed over. -/
theorem countP_rerolled_chases (sides : Sides Int) (chases : List Chase) :
    (chases.flatMap (·.dice sides)).countP (·.rerolled) = extraDraws chases := by
  induction chases with
  | nil => rfl
  | cons chase rest ih =>
    rw [List.flatMap_cons, List.countP_append, ih, Chase.countP_rerolled_dice]
    rfl

/-! ## One modifier -/

/-- The die is marked if it counts and meets the condition. -/
def Die.markIf (meets : Int → Bool) (die : Die) : Die :=
  if die.fits meets then { die with rerolled := true } else die

/-- A die that would be rerolled is no longer one when it is marked. -/
theorem Die.fits_markIf (meets : Int → Bool) (die : Die) :
    (die.markIf meets).fits meets = false := by
  rw [markIf]
  split
  · simp [fits, active]
  · next h => exact Bool.eq_false_iff.mpr h

/-- Each die that is marked was active before, and had no mark. -/
theorem countP_markIf (meets : Int → Bool) (dice : List Die) :
    (dice.map (·.markIf meets)).countP (·.active) + dice.countP (·.fits meets) =
        dice.countP (·.active) ∧
      (dice.map (·.markIf meets)).countP (·.rerolled) =
        dice.countP (·.rerolled) + dice.countP (·.fits meets) := by
  induction dice with
  | nil => exact ⟨rfl, rfl⟩
  | cons die rest ih =>
    obtain ⟨hactive, hrerolled⟩ := ih
    simp only [List.map_cons, List.countP_cons]
    cases hfits : die.fits meets with
    | false =>
      have hsame : die.markIf meets = die := by
        rw [Die.markIf, hfits]
        rfl
      rw [hsame]
      constructor
      · simp only [Bool.false_eq_true, if_false]
        omega
      · simp only [Bool.false_eq_true, if_false]
        omega
    | true =>
      have hcounts : die.active = true := (Bool.and_eq_true_iff.mp hfits).1
      have hmarked : (die.markIf meets).active = false ∧ (die.markIf meets).rerolled = true := by
        rw [Die.markIf, hfits]
        simp [Die.active]
      have hfresh : die.rerolled = false := (Die.active_iff.mp hcounts).2
      rw [hmarked.1, hmarked.2, hcounts, hfresh]
      constructor
      · simp only [Bool.false_eq_true, if_false, if_true]
        omega
      · simp only [Bool.false_eq_true, if_false, if_true]
        omega

/-- What one reroll makes of dice, with the chases that it brings.

    `after`: the dice that count and meet the condition when it starts are marked, and no other of
    those dice; the replacements are put behind them.  `each`: each of them is replaced by a chase.
    `chased`: what a chase replaces in turn met the condition, and once means never. -/
structure Rerolls (mode : RerollMode) (meets : Int → Bool) (sides : Sides Int) (dice : List Die)
    (chases : List Chase) (after : List Die) : Prop where
  after : after = dice.map (·.markIf meets) ++ chases.flatMap (·.dice sides)
  each : chases.length = dice.countP (·.fits meets)
  chased : ∀ chase ∈ chases, chase.Follows mode meets

namespace Rerolls

variable {mode : RerollMode} {meets : Int → Bool} {sides : Sides Int} {dice after : List Die}
  {chases : List Chase}

/-- As many are active as before, and each draw brings a die and marks one. -/
theorem counts (h : Rerolls mode meets sides dice chases after) :
    after.countP (·.active) = dice.countP (·.active) ∧
      after.length = dice.length + (drawnBy chases).length ∧
        after.countP (·.rerolled) = dice.countP (·.rerolled) + (drawnBy chases).length := by
  obtain ⟨hactive, hrerolled⟩ := countP_markIf meets dice
  have hlength := length_drawnBy chases
  have heach := h.each
  rw [h.after, List.countP_append, List.countP_append, List.length_append, List.length_map,
    countP_active_chases, countP_rerolled_chases, length_flatMap_dice]
  refine ⟨?_, rfl, ?_⟩
  · omega
  · omega

/-- If the last die of each chase does not meet the condition, no active die does. -/
theorem settled (h : Rerolls mode meets sides dice chases after)
    (hlast : ∀ chase ∈ chases, meets chase.last = false) :
    ∀ die ∈ after, die.fits meets = false := by
  rw [h.after, List.forall_mem_append]
  constructor
  · rw [List.forall_mem_map]
    exact fun die _ => die.fits_markIf meets
  · intro die hdie
    obtain ⟨chase, hchase, hdie⟩ := List.mem_flatMap.mp hdie
    rcases List.mem_append.mp hdie with hpassed | hend
    · obtain ⟨face, -, rfl⟩ := List.mem_map.mp hpassed
      rfl
    · rw [List.mem_singleton.mp hend, Die.fits, hlast chase hchase, Bool.and_false]

end Rerolls

/-! ## Several modifiers -/

/-- Dice are rerolled by one modifier after the other; those faces are drawn, and so many draws are
    extra. -/
inductive RerollsTo (table : Bindings Int) (sides : Sides Int) :
    List Reroll → List Die → List Int → Nat → List Die → Prop where
  | nil (dice : List Die) : RerollsTo table sides [] dice [] 0 dice
  | cons {reroll : Reroll} {threshold : Int} {rest : List Reroll} {dice between after : List Die}
      {chases : List Chase} {faces : List Int} {extra : Nat}
      (value : reroll.threshold.value? table = some threshold)
      (first : Rerolls reroll.mode (reroll.comparison.holds · threshold) sides dice chases between)
      (others : RerollsTo table sides rest between faces extra after) :
      RerollsTo table sides (reroll :: rest) dice (drawnBy chases ++ faces)
        (extraDraws chases + extra) after

/-- Rerolls leave as many dice that count as there were, and each face drawn adds a die to those
    that do not. -/
theorem RerollsTo.counts {table : Bindings Int} {sides : Sides Int} {rerolls : List Reroll}
    {dice after : List Die} {faces : List Int} {extra : Nat}
    (h : RerollsTo table sides rerolls dice faces extra after) :
    after.countP (·.active) = dice.countP (·.active) ∧
      after.length = dice.length + faces.length ∧
        after.countP (·.rerolled) = dice.countP (·.rerolled) + faces.length := by
  induction h with
  | nil dice => exact ⟨rfl, rfl, rfl⟩
  | cons value first others ih =>
    obtain ⟨hactive, hlength, hrerolled⟩ := first.counts
    rw [List.length_append]
    omega

namespace Rolling

variable {setup : Setup} {sides : Sides Int}

/-! ## Their draws -/

/-- What is drawn in place of one die, with so many extra draws left.

    `settled`: while extra draws are left, a chase is not cut short. -/
structure Chased (mode : RerollMode) (meets : Int → Bool) (sides : Sides Int) (spare : Nat)
    (chase : Chase) (r : List Die × Nat) : Prop where
  dice : r.1 = chase.dice sides
  follows : chase.Follows mode meets
  spent : chase.passed.length + r.2 = spare
  settled : mode = .continuous → 0 < r.2 → meets chase.last = false

/-- Induction on the extra draws that are left. -/
theorem chase_yields (meets : Int → Bool) (spare : Nat) (face : Int) :
    Yields setup sides (fun r faces _ => ∃ chase : Chase, chase.faces = face :: faces ∧
      Chased .continuous meets sides spare chase r) (chase setup sides meets face spare) := by
  induction spare generalizing face with
  | zero =>
    have hlast : Yields setup sides (fun r faces _ => ∃ chase : Chase, chase.faces = face :: faces ∧
        Chased .continuous meets sides 0 chase r) (Pure.pure ([({ sides, face } : Die)], 0)) :=
      .pure ⟨⟨[], face⟩, rfl, rfl, ⟨by simp, fun _ => rfl⟩, rfl, by simp⟩
    refine .ite (c := meets face) (fun _ => .bind (note_yields _) fun _ faces events hnoted => ?_)
      fun _ => hlast
    obtain ⟨rfl, rfl⟩ := hnoted
    exact hlast.mono fun r faces _ hr => hr
  | succ spare ih =>
    rw [chase_succ]
    refine .ite (fun hmeets => ?_) fun hmeets => ?_
    · refine .bind draw_yields fun next faces events hnext => ?_
      obtain ⟨rfl, rfl⟩ := hnext
      refine .bind (ih next) fun r more events hr => .pure ?_
      obtain ⟨chase, hfaces, hdice, hfollows, hspent, hsettled⟩ := hr
      refine ⟨⟨face :: chase.passed, chase.last⟩, ?_, ?_, ⟨?_, by simp⟩, ?_, hsettled⟩
      · rw [Chase.faces, List.cons_append, ← Chase.faces, hfaces, List.append_nil]
        rfl
      · rw [hdice]
        rfl
      · exact List.forall_mem_cons.mpr ⟨hmeets, hfollows.passed⟩
      · rw [List.length_cons]
        omega
    · refine .pure ⟨⟨[], face⟩, rfl, rfl, ⟨by simp, fun _ => rfl⟩, ?_, fun _ _ => ?_⟩
      · exact Nat.zero_add _
      · exact Bool.eq_false_iff.mpr hmeets

/-- A die is replaced by a chase, as its mode and its spare draws let it. -/
theorem replace_yields (mode : RerollMode) (meets : Int → Bool) (spare : Nat) :
    Yields setup sides (fun r faces _ => ∃ chase : Chase, chase.faces = faces ∧
      Chased mode meets sides spare chase r) (replace setup sides mode meets spare) := by
  cases mode with
  | once =>
    show Yields _ _ _
      (draw setup sides >>= fun face => Pure.pure ([({ sides, face } : Die)], spare))
    refine .bind draw_yields fun face faces events hface => .pure ?_
    obtain ⟨rfl, rfl⟩ := hface
    exact ⟨⟨[], face⟩, rfl, rfl, ⟨by simp, fun _ => rfl⟩, Nat.zero_add _, by simp⟩
  | continuous =>
    show Yields _ _ _ (draw setup sides >>= fun face => chase setup sides meets face spare)
    refine .bind draw_yields fun face faces events hface => ?_
    obtain ⟨rfl, rfl⟩ := hface
    exact chase_yields meets spare face

/-- Die by die: those that were there are marked where they have to be, and the chases come one
    after the other.  While extra draws are left at the end, there were some all along. -/
theorem rerollEach_yields (mode : RerollMode) (meets : Int → Bool) (dice : List Die)
    (spare : Nat) :
    Yields setup sides (fun r faces _ => ∃ chases, drawnBy chases = faces ∧
        (r.marked = dice.map (·.markIf meets) ∧ r.added = chases.flatMap (·.dice sides)) ∧
        chases.length = dice.countP (·.fits meets) ∧
        (∀ chase ∈ chases, chase.Follows mode meets) ∧ extraDraws chases + r.spare = spare ∧
        (mode = .continuous → 0 < r.spare → ∀ chase ∈ chases, meets chase.last = false))
      (rerollEach setup sides mode meets spare dice) := by
  induction dice generalizing spare with
  | nil => exact .pure ⟨[], rfl, ⟨rfl, rfl⟩, rfl, by simp, Nat.zero_add _, by simp⟩
  | cons die rest ih =>
    rw [rerollEach_cons]
    refine .ite (fun hfits => ?_) fun hfits => ?_
    · -- One chase more; what it spent and what the others spend is what there was.
      refine .bind (replace_yields mode meets spare) fun new faces events hnew => ?_
      obtain ⟨chase, rfl, hdice, hfollows, hspent, hsettled⟩ := hnew
      refine .bind (ih new.2) fun r more events hr => .pure ?_
      obtain ⟨chases, rfl, ⟨hmarked, hadded⟩, heach, hchased, hspent', hsettled'⟩ := hr
      refine ⟨chase :: chases, ?_, ⟨?_, ?_⟩, ?_, List.forall_mem_cons.mpr ⟨hfollows, hchased⟩, ?_,
        fun hmode hleft => List.forall_mem_cons.mpr ⟨hsettled hmode ?_, hsettled' hmode hleft⟩⟩
      · rw [drawnBy, List.flatMap_cons, List.append_nil]
        rfl
      · rw [hmarked, List.map_cons, Die.markIf, Die.fits, if_pos hfits]
      · rw [hadded, hdice, List.flatMap_cons]
      · rw [List.length_cons, heach, List.countP_cons, Die.fits, if_pos hfits]
      · show extraDraws (chase :: chases) + r.spare = spare
        rw [extraDraws, List.map_cons, List.sum_cons, ← extraDraws]
        omega
      · have hleft' : 0 < r.spare := hleft
        omega
    · refine .bind (ih spare) fun r faces events hr => .pure ?_
      obtain ⟨chases, rfl, ⟨hmarked, hadded⟩, heach, hrest⟩ := hr
      refine ⟨chases, (List.append_nil _).symm, ⟨?_, hadded⟩, ?_, hrest⟩
      · rw [hmarked, List.map_cons, Die.markIf, Die.fits, if_neg hfits]
      · rw [heach, List.countP_cons, Die.fits, if_neg hfits]
        rfl

/-- Induction on the modifiers: each starts with the extra draws that those before it left. -/
theorem applyRerolls_yields {rerolls : List Reroll}
    (h : ∀ m ∈ rerolls, ∃ threshold, m.threshold.value? setup.table = some threshold)
    (spare : Nat) (dice : List Die) :
    Yields setup sides (fun r faces _ => ∃ extra,
        RerollsTo setup.table sides rerolls dice faces extra r.1 ∧ extra + r.2 = spare ∧
        ∀ m ∈ rerolls.getLast?, m.mode = .continuous → 0 < r.2 → ∀ threshold,
          m.threshold.value? setup.table = some threshold →
            ∀ die ∈ r.1, die.fits (m.comparison.holds · threshold) = false)
      (applyRerolls setup sides rerolls spare dice) := by
  induction rerolls generalizing spare dice with
  | nil => exact .pure ⟨0, .nil dice, Nat.zero_add _, by simp⟩
  | cons m rest ih =>
    obtain ⟨⟨threshold, hvalue⟩, hrest⟩ := List.forall_mem_cons.mp h
    rw [applyRerolls_cons]
    refine .bind (resolve_yields hvalue) fun n none events hn => ?_
    obtain ⟨rfl, rfl, rfl⟩ := hn
    refine .bind (rerollEach_yields m.mode _ dice spare) fun r faces events hr => ?_
    obtain ⟨chases, rfl, ⟨hmarked, hadded⟩, heach, hchased, hspent, hsettled⟩ := hr
    have hfirst : Rerolls m.mode (m.comparison.holds · n) sides dice chases
        (r.marked ++ r.added) := ⟨by rw [hmarked, hadded], heach, hchased⟩
    refine (ih hrest r.spare (r.marked ++ r.added)).mono fun r' more _ hmore => ?_
    obtain ⟨extra, hothers, hspent', hlast⟩ := hmore
    refine ⟨extraDraws chases + extra, .cons hvalue hfirst hothers, by omega, ?_⟩
    cases rest with
    | cons m' rest => exact hlast
    | nil =>
      -- This one is the last modifier, and what it leaves is what is left.
      generalize r'.1 = after at hothers ⊢
      cases hothers
      rintro _ ⟨⟩ hmode hleft threshold hthreshold
      cases hvalue.symm.trans hthreshold
      exact hfirst.settled (hsettled hmode (by omega))

/-- **Rerolls.**  Each modifier marks the dice that count and meet its condition when it starts, and
    brings a chase for each of them; a reroll that is made once brings one die for each.  In the
    end as many dice are active as before, and each draw brought a die and marked one.  The extra
    draws of all chases together are no more than the limit; if they are fewer and the last modifier
    is continuous, no active die meets its condition. -/
theorem applyRerolls_rerolls (setup : Setup) (sides : Sides Int) {rerolls : List Reroll}
    (h : ∀ m ∈ rerolls, ∃ threshold, m.threshold.value? setup.table = some threshold)
    {limit : Nat} (hlimit : setup.limits.rerolls = limit) (dice : List Die) :
    Yields setup sides (fun r faces _ => ∃ extra,
        RerollsTo setup.table sides rerolls dice faces extra r.1 ∧
        r.1.countP (·.active) = dice.countP (·.active) ∧
        r.1.length = dice.length + faces.length ∧
        r.1.countP (·.rerolled) = dice.countP (·.rerolled) + faces.length ∧
        extra ≤ limit ∧
        ∀ m ∈ rerolls.getLast?, m.mode = .continuous → extra < limit → ∀ threshold,
          m.threshold.value? setup.table = some threshold →
            ∀ die ∈ r.1, die.fits (m.comparison.holds · threshold) = false)
      (applyRerolls setup sides rerolls setup.limits.rerolls.toNat dice) := by
  rw [hlimit, Int.toNat_natCast]
  refine (applyRerolls_yields h limit dice).mono fun r faces _ hr => ?_
  obtain ⟨extra, hrun, hspent, hlast⟩ := hr
  obtain ⟨hactive, hlength, hrerolled⟩ := hrun.counts
  refine ⟨extra, hrun, hactive, hlength, hrerolled, by omega, fun m hm hmode hfew => ?_⟩
  exact hlast m hm hmode (by omega)

/-- A one is rerolled once, although a two comes in its place; then the two is rerolled until a five
    comes, with one extra draw of the two that are allowed. -/
theorem applyRerolls_rerolls_twice :
    ∃ setup rerolls dice after ledger,
      setup = Setup.mk (Source.cycle #[2, 3, 5]) { rerolls := 2 } [("K", 3)] 9 ∧
      rerolls = [⟨.once, .le, .number 2⟩, ⟨.continuous, .le, .named "K"⟩] ∧
      dice = [⟨.faces 6, 1, false, false, false, false, none⟩,
        ⟨.faces 6, 2, false, true, false, false, none⟩,
        ⟨.faces 6, 6, false, false, false, false, none⟩] ∧
      Yields setup (.faces 6) (fun r faces _ => ∃ extra,
          RerollsTo setup.table (.faces 6) rerolls dice faces extra r.1 ∧
          r.1.countP (·.active) = dice.countP (·.active) ∧
          r.1.length = dice.length + faces.length ∧
          r.1.countP (·.rerolled) = dice.countP (·.rerolled) + faces.length ∧
          extra ≤ 2 ∧
          ∀ m ∈ rerolls.getLast?, m.mode = .continuous → extra < 2 → ∀ threshold,
            m.threshold.value? setup.table = some threshold →
              ∀ die ∈ r.1, die.fits (m.comparison.holds · threshold) = false)
        (applyRerolls setup (.faces 6) rerolls setup.limits.rerolls.toNat dice) ∧
      applyRerolls setup (.faces 6) rerolls setup.limits.rerolls.toNat dice {} =
        .ok (after, 1) ledger ∧
      after.map (·.face) = [1, 2, 6, 2, 3, 5] ∧
      after.map (·.rerolled) = [true, false, false, true, true, false] ∧
      ledger.requests = #[6, 6, 6] := by
  generalize hsetup : Setup.mk (Source.cycle #[2, 3, 5]) { rerolls := 2 } [("K", 3)] 9 = setup
  generalize hrerolls : [Reroll.mk .once .le (.number 2), ⟨.continuous, .le, .named "K"⟩] = rerolls
  have hvalues : ∀ m ∈ rerolls, ∃ threshold,
      m.threshold.value? setup.table = some threshold := by
    subst hsetup hrerolls
    rw [List.forall_mem_cons, List.forall_mem_singleton]
    exact ⟨⟨2, rfl⟩, 3, rfl⟩
  have hlimit : setup.limits.rerolls = (2 : Nat) := by
    subst hsetup
    rfl
  refine ⟨setup, rerolls, _,
    [⟨.faces 6, 1, false, false, true, false, none⟩,
      ⟨.faces 6, 2, false, true, false, false, none⟩,
      ⟨.faces 6, 6, false, false, false, false, none⟩,
      ⟨.faces 6, 2, false, false, true, false, none⟩,
      ⟨.faces 6, 3, false, false, true, false, none⟩,
      ⟨.faces 6, 5, false, false, false, false, none⟩],
    ⟨#[6, 6, 6], [("K", 3)], #[]⟩, rfl, rfl, rfl,
    applyRerolls_rerolls setup (.faces 6) hvalues hlimit _, ?_, rfl, rfl, rfl⟩
  subst hsetup hrerolls
  cbv

end Rolling

end Tabletop
