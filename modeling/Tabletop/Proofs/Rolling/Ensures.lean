/-
  What a roll ensures, wherever it starts.

  1. **Values and faults** — `Ensures Q R roll` says that a value of the roll passes `Q` and that a
     fault it ends with passes `R`.  It is closed under what rolls are put together with, so that
     each function of a roll needs one lemma, whose proof follows its text.
  2. **Faults** — a roll fails because of a value on the way, because its source has no answer, or
     because a variable has no value; and then the variable is one that the expression names.
  3. **Dice** — the dice of a term are drawn and then only marked.  Whatever holds of a die when it
     is drawn, and goes on to hold when it is marked, holds of every die of the term; the lemmas
     below ask for just the marks that their function makes.
-/
import Mathlib.Data.List.Forall2
import Tabletop.Proofs.Names
import Tabletop.Proofs.Run
import Tabletop.Roll.Expr

namespace Tabletop

/-- The value of an operand, where it has one. -/
def Operand.value? (table : Bindings Int) : Operand → Option Int
  | .number n => some n
  | .named name => table.get? name

/-- The size of a die, where it has one. -/
def Sides.value? (table : Bindings Int) : Sides Operand → Option (Sides Int)
  | .faces x => (x.value? table).map .faces
  | .fate => some .fate

namespace Rolling

/-! ## Values and faults -/

/-- From whatever ledger the roll starts, its value passes `Q`, and a fault that it ends with
    passes `R`. -/
structure Ensures {α : Type} (Q : α → Prop) (R : Fault → Prop) (roll : Rolling α) : Prop where
  value {before after : Ledger} {a : α} : roll before = .ok a after → Q a
  fault {before after : Ledger} {fault : Fault} : roll before = .error fault after → R fault

namespace Ensures

variable {α β : Type} {Q Q' : α → Prop} {S : β → Prop} {R : Fault → Prop}

/-- Less may be said of a value than is ensured. -/
theorem mono {roll : Rolling α} (h : Ensures Q R roll) (hQ : ∀ a, Q a → Q' a) :
    Ensures Q' R roll :=
  ⟨fun hok => hQ _ (h.value hok), h.fault⟩

/-- A value ensures what it passes. -/
theorem pure {a : α} (h : Q a) : Ensures Q R (pure a) := by
  refine ⟨?_, nofun⟩
  rintro _ _ _ ⟨⟩
  exact h

/-- A fault ensures what it passes. -/
theorem throw {fault : Fault} (h : R fault) : Ensures Q R (throw fault : Rolling α) := by
  refine ⟨nofun, ?_⟩
  rintro _ _ _ ⟨⟩
  exact h

/-- Of two rolls in a row the second is begun with a value that the first one ensures. -/
theorem bind {roll : Rolling α} {next : α → Rolling β} (h : Ensures Q R roll)
    (hnext : ∀ a, Q a → Ensures S R (next a)) : Ensures S R (roll >>= next) := by
  constructor
  · intro before after b hok
    obtain ⟨a, between, hfirst, hsecond⟩ := Run.bind_eq_ok.mp hok
    exact (hnext a (h.value hfirst)).value hsecond
  · intro before after fault herror
    cases hfirst : roll before with
    | ok a between =>
      rw [Run.bind_of_ok hfirst] at herror
      exact (hnext a (h.value hfirst)).fault herror
    | error fault' between =>
      rw [Run.bind_of_error hfirst] at herror
      cases herror
      exact h.fault hfirst

/-- A choice ensures what both of its ways do. -/
theorem ite {c : Prop} [Decidable c] {x y : Rolling α} (hx : c → Ensures Q R x)
    (hy : ¬ c → Ensures Q R y) : Ensures Q R (if c then x else y) := by
  by_cases hc : c
  · rw [if_pos hc]
    exact hx hc
  · rw [if_neg hc]
    exact hy hc

end Ensures

/-! ## Single steps -/

/-- The faults that a roll may end with, if the names it looks up pass `P`: a value is not fit for
    it, its source has no answer, or a name has no value. -/
inductive Excused (setup : Setup) (P : String → Prop) : Fault → Prop where
  | hazard (hazard : Hazard) : Excused setup P (.expr (.hazard hazard))
  | dry {earlier : Array Nat} {bound : Nat} (none : setup.source earlier bound = none) :
      Excused setup P (.defect .noDraws)
  | undefined {name : String} (passes : P name) (none : setup.table.get? name = none) :
      Excused setup P (.expr (.undefined name))

variable {setup : Setup} {P : String → Prop} {sides : Sides Int}

/-- A hazard is always excused. -/
theorem refuse_ensures {α : Type} {Q : α → Prop} (hazard : Hazard) :
    Ensures Q (Excused setup P) (refuse hazard) :=
  .throw (.hazard hazard)

theorem note_ensures (event : Event) :
    Ensures (fun _ => True) (Excused setup P) (note event) :=
  ⟨fun _ => trivial, nofun⟩

/-- Whether an event is noted on the way makes no difference to what is ensured. -/
theorem noteIf_ensures {α : Type} {Q : α → Prop} {c : Prop} [Decidable c] (event : Event)
    {next : Rolling α} (h : Ensures Q (Excused setup P) next) :
    Ensures Q (Excused setup P) (if c then note event >>= fun _ => next else next) :=
  .ite (fun _ => .bind (note_ensures event) fun _ _ => h) fun _ => h

/-- A draw fails only where the source gives no answer. -/
theorem draw_ensures (sides : Sides Int) :
    Ensures (fun _ => True) (Excused setup P) (draw setup sides) := by
  refine ⟨fun _ => trivial, fun {before after fault} h => ?_⟩
  rw [draw] at h
  split at h
  · cases h
  · next hnone =>
    cases h
    exact .dry hnone

/-- An operand is resolved to its value, unless its name has none. -/
theorem resolve_ensures {operand : Operand} (h : Named P operand) :
    Ensures (fun n => operand.value? setup.table = some n) (Excused setup P)
      (resolve setup operand) := by
  cases operand with
  | number n => exact .pure rfl
  | named name =>
    constructor
    · intro before after n hok
      rw [resolve] at hok
      split at hok
      · next m hm =>
        cases hok
        exact hm
      · cases hok
    · intro before after fault herror
      rw [resolve] at herror
      split at herror
      · cases herror
      · next hnone =>
        cases herror
        exact .undefined h hnone

/-- A value that is let through lies between the bounds. -/
theorem resolveWithin_ensures {operand : Operand} (h : Named P operand) (what : Quantity)
    (minimum maximum : Int) :
    Ensures (fun n => operand.value? setup.table = some n ∧ minimum ≤ n ∧ n ≤ maximum)
      (Excused setup P) (resolveWithin setup what minimum maximum operand) := by
  show Ensures _ _ (resolve setup operand >>= fun n =>
    if n < minimum ∨ maximum < n then refuse (.outOfRange what minimum maximum n) else pure n)
  refine .bind (resolve_ensures h) fun n hn => ?_
  refine .ite (fun _ => refuse_ensures _) fun hin => .pure ⟨hn, ?_, ?_⟩
  · omega
  · omega

/-! ## Drawing dice -/

section Dice

variable {p : Die → Prop}

/-- A die passes what it passes with every face. -/
theorem drawDie_ensures (hdrawn : ∀ face, p { sides, face }) :
    Ensures p (Excused setup P) (drawDie setup sides) := by
  show Ensures _ _ (draw setup sides >>= fun face => pure ({ sides, face } : Die))
  exact .bind (draw_ensures sides) fun face _ => .pure (hdrawn face)

/-- All dice that are drawn pass what one passes with every face. -/
theorem drawDice_ensures {role : Option String} (hdrawn : ∀ face, p { sides, face, role })
    (n : Nat) :
    Ensures (fun dice => ∀ die ∈ dice, p die) (Excused setup P)
      (drawDice setup sides role n) := by
  induction n with
  | zero => exact .pure (by simp)
  | succ n ih =>
    rw [drawDice_succ]
    refine .bind (draw_ensures sides) fun face _ => .bind ih fun more hmore => .pure ?_
    exact List.forall_mem_cons.mpr ⟨hdrawn face, hmore⟩

/-! ## Rerolls -/

/-- Induction on the spare draws: every round but the last marks the die that it drew. -/
theorem chase_ensures (hdrawn : ∀ face, p { sides, face })
    (hreroll : ∀ die, p die → die.active = true → p { die with rerolled := true })
    (meets : Int → Bool) (spare : Nat) :
    ∀ face : Int, Ensures (fun r => ∀ die ∈ r.1, p die) (Excused setup P)
      (chase setup sides meets face spare) := by
  induction spare with
  | zero =>
    intro face
    have hlast : Ensures (fun r => ∀ die ∈ r.1, p die) (Excused setup P)
        (Pure.pure ([({ sides, face } : Die)], 0)) :=
      .pure (by simpa using hdrawn face)
    exact noteIf_ensures (c := meets face) (.rerollLimit setup.limits.rerolls) hlast
  | succ spare ih =>
    intro face
    rw [chase_succ]
    refine .ite (fun _ => .bind (draw_ensures sides) fun next _ => ?_)
      fun _ => .pure (by simpa using hdrawn face)
    refine .bind (ih next) fun r hr => .pure ?_
    exact List.forall_mem_cons.mpr ⟨hreroll _ (hdrawn face) rfl, hr⟩

/-- The dice that replace a die pass, those among them that were replaced too. -/
theorem replace_ensures (hdrawn : ∀ face, p { sides, face })
    (hreroll : ∀ die, p die → die.active = true → p { die with rerolled := true })
    (mode : RerollMode) (meets : Int → Bool) (spare : Nat) :
    Ensures (fun r => ∀ die ∈ r.1, p die) (Excused setup P)
      (replace setup sides mode meets spare) := by
  cases mode with
  | once =>
    show Ensures _ _ (draw setup sides >>= fun face => pure ([({ sides, face } : Die)], spare))
    exact .bind (draw_ensures sides) fun face _ => .pure (by simpa using hdrawn face)
  | continuous =>
    show Ensures _ _ (draw setup sides >>= fun face => chase setup sides meets face spare)
    exact .bind (draw_ensures sides) fun face _ => chase_ensures hdrawn hreroll meets spare face

/-- If a die passes when it is marked as replaced, all dice pass behind a reroll: induction on the
    dice. -/
theorem rerollEach_ensures (hdrawn : ∀ face, p { sides, face })
    (hreroll : ∀ die, p die → die.active = true → p { die with rerolled := true })
    (mode : RerollMode) (meets : Int → Bool) (dice : List Die) :
    ∀ spare : Nat, (∀ die ∈ dice, p die) →
      Ensures (fun r => ∀ die ∈ r.marked ++ r.added, p die) (Excused setup P)
        (rerollEach setup sides mode meets spare dice) := by
  induction dice with
  | nil => exact fun spare _ => .pure (by simp)
  | cons die rest ih =>
    intro spare hdice
    rw [List.forall_mem_cons] at hdice
    rw [rerollEach_cons]
    refine .ite (fun hmeets => ?_) fun _ => ?_
    · have hactive : die.active = true := (Bool.and_eq_true_iff.mp hmeets).1
      have hmarked := hreroll die hdice.1 hactive
      refine .bind (replace_ensures hdrawn hreroll mode meets spare) fun r hr => ?_
      refine .bind (ih r.2 hdice.2) fun after hafter => .pure ?_
      simp only [List.cons_append, List.mem_cons, List.mem_append] at hafter ⊢
      rintro d (rfl | hd | hd | hd)
      · exact hmarked
      · exact hafter d (Or.inl hd)
      · exact hr d hd
      · exact hafter d (Or.inr hd)
    · refine .bind (ih spare hdice.2) fun after hafter => .pure ?_
      exact List.forall_mem_cons.mpr ⟨hdice.1, hafter⟩

/-- If a die passes when it is marked as replaced, all dice pass behind the rerolls. -/
theorem applyRerolls_ensures (hdrawn : ∀ face, p { sides, face })
    (hreroll : ∀ die, p die → die.active = true → p { die with rerolled := true })
    (rerolls : List Reroll) :
    (∀ m ∈ rerolls, Named P m.threshold) → ∀ (spare : Nat) (dice : List Die),
      (∀ die ∈ dice, p die) → Ensures (fun r => ∀ die ∈ r.1, p die) (Excused setup P)
        (applyRerolls setup sides rerolls spare dice) := by
  induction rerolls with
  | nil => exact fun _ spare dice hdice => .pure hdice
  | cons m rest ih =>
    intro hnamed spare dice hdice
    rw [List.forall_mem_cons] at hnamed
    rw [applyRerolls_cons]
    refine .bind (resolve_ensures hnamed.1) fun threshold _ => ?_
    refine .bind (rerollEach_ensures hdrawn hreroll m.mode _ dice spare hdice)
      fun after hafter => ?_
    exact ih hnamed.2 after.spare _ hafter

/-! ## Explosions -/

/-- As in the scan itself, either an explosion is spent or a die is passed: the induction is on the
    explosions left, and inside on the dice. -/
theorem scan_ensures (hdrawn : ∀ face, p { sides, face })
    (hexplode : ∀ die, p die → die.active = true → die.exploded = false →
      p { die with exploded := true })
    (meets : Int → Bool) (spare : Nat) :
    ∀ dice : List Die, (∀ die ∈ dice, p die) →
      Ensures (fun r => ∀ die ∈ r.passed ++ r.ahead, p die) (Excused setup P)
        (scan setup sides meets spare dice) := by
  induction spare with
  | zero =>
    intro dice hdice
    rw [scan_zero]
    exact .pure hdice
  | succ left ihspare =>
    intro dice
    induction dice with
    | nil =>
      intro _
      rw [scan_nil]
      exact .pure (by simp)
    | cons die rest ihrest =>
      intro hdice
      rw [List.forall_mem_cons] at hdice
      rw [scan_cons]
      refine .ite (fun hmeets => ?_) fun _ => ?_
      · simp only [Bool.and_eq_true, Bool.not_eq_true'] at hmeets
        have hmarked := hexplode die hdice.1 hmeets.1.1 hmeets.1.2
        refine .bind (drawDie_ensures hdrawn) fun extra hextra => ?_
        -- The extra die is looked at, too, after those that were there.
        have hahead : ∀ d ∈ rest ++ [extra], p d := by
          rw [List.forall_mem_append]
          exact ⟨hdice.2, by simpa using hextra⟩
        refine .bind (ihspare _ hahead) fun r hr => .pure ?_
        exact List.forall_mem_cons.mpr ⟨hmarked, hr⟩
      · refine .bind (ihrest hdice.2) fun r hr => .pure ?_
        exact List.forall_mem_cons.mpr ⟨hdice.1, hr⟩

/-- An explosion has a threshold, unless the name in it has no value. -/
theorem explosionThreshold_ensures (m : Explosion) (h : ∀ x ∈ m.threshold, Named P x) :
    Ensures (fun _ => True) (Excused setup P) (explosionThreshold setup sides m) := by
  cases hm : m.threshold with
  | none =>
    rw [explosionThreshold, hm]
    exact .pure trivial
  | some x =>
    rw [explosionThreshold, hm]
    exact (resolve_ensures (h x hm)).mono fun _ _ => trivial

/-- If a die passes when it is marked as exploded, all dice pass behind the explosions. -/
theorem applyExplosions_ensures (hdrawn : ∀ face, p { sides, face })
    (hexplode : ∀ die, p die → die.active = true → die.exploded = false →
      p { die with exploded := true })
    (explosions : List Explosion) :
    (∀ m ∈ explosions, ∀ x ∈ m.threshold, Named P x) → ∀ (count : Nat) (dice : List Die),
      (∀ die ∈ dice, p die) → Ensures (fun r => ∀ die ∈ r, p die) (Excused setup P)
        (applyExplosions setup sides explosions count dice) := by
  induction explosions with
  | nil => exact fun _ count dice hdice => .pure hdice
  | cons m rest ih =>
    intro hnamed count dice hdice
    rw [List.forall_mem_cons] at hnamed
    refine .bind (explosionThreshold_ensures m hnamed.1) fun threshold _ => ?_
    refine .bind (scan_ensures hdrawn hexplode _ _ dice hdice) fun after hafter => ?_
    exact noteIf_ensures _ (ih hnamed.2 _ _ hafter)

/-! ## Selections -/

/-- If a die passes when it is taken out, all dice pass where some are. -/
theorem forall_mem_dropAt {places : List Nat} {dice : List Die} (hdice : ∀ die ∈ dice, p die)
    (hdrop : ∀ die, p die → p { die with dropped := true }) :
    ∀ die ∈ dropAt places dice, p die := by
  intro die hdie
  obtain ⟨⟨d, place⟩, hmem, rfl⟩ := List.mem_map.mp hdie
  have hd : p d := hdice d (List.fst_mem_of_mem_zipIdx hmem)
  show p (if place ∈ places then { d with dropped := true } else d)
  split
  · exact hdrop d hd
  · exact hd

/-- What every selection keeps, all of them do: induction on the selections. -/
theorem applySelections_keeps {I : List Die → Prop}
    (hselect : ∀ (action : SelectionAction) (extreme : Extreme) (count : Nat) (dice : List Die),
      I dice → I (action.apply extreme count dice))
    (selections : List Selection) :
    (∀ m ∈ selections, Named P m.count) → ∀ dice : List Die, I dice →
      Ensures (fun r => I r ∧ (selections = [] → r = dice)) (Excused setup P)
        (applySelections setup selections dice) := by
  induction selections with
  | nil => exact fun _ dice hdice => .pure ⟨hdice, fun _ => rfl⟩
  | cons m rest ih =>
    intro hnamed dice hdice
    rw [List.forall_mem_cons] at hnamed
    rw [applySelections_cons]
    refine .bind (resolve_ensures hnamed.1) fun count _ => ?_
    refine .ite (fun _ => refuse_ensures _) fun _ => ?_
    refine (ih hnamed.2 _ (hselect _ _ _ _ hdice)).mono fun r hr => ⟨hr.1, fun hnone => ?_⟩
    cases hnone

/-- If a die passes when it is taken out, all dice pass behind the selections. -/
theorem applySelections_ensures (hdrop : ∀ die, p die → p { die with dropped := true })
    (selections : List Selection) (hnamed : ∀ m ∈ selections, Named P m.count) (dice : List Die)
    (hdice : ∀ die ∈ dice, p die) :
    Ensures (fun r => ∀ die ∈ r, p die) (Excused setup P)
      (applySelections setup selections dice) := by
  have hselect : ∀ (action : SelectionAction) (extreme : Extreme) (count : Nat) (dice : List Die),
      (∀ die ∈ dice, p die) → ∀ die ∈ action.apply extreme count dice, p die :=
    fun action extreme count dice hdice => forall_mem_dropAt hdice hdrop
  exact (applySelections_keeps hselect selections hnamed dice hdice).mono fun r hr => hr.1

end Dice

/-! ## Success checks -/

/-- The checks with the values that they compare with. -/
theorem resolveChecks_ensures (checks : List SuccessCheck) :
    (∀ m ∈ checks, Named P m.threshold) →
      Ensures (List.Forall₂ (fun m value => m.comparison = value.1 ∧
        m.threshold.value? setup.table = some value.2) checks) (Excused setup P)
        (resolveChecks setup checks) := by
  induction checks with
  | nil => exact fun _ => .pure .nil
  | cons m rest ih =>
    intro hnamed
    rw [List.forall_mem_cons] at hnamed
    rw [resolveChecks_cons]
    refine .bind (resolve_ensures hnamed.1) fun threshold hthreshold => ?_
    exact .bind (ih hnamed.2) fun more hmore => .pure (.cons ⟨rfl, hthreshold⟩ hmore)

/-- A size is resolved to its value, unless its name has none. -/
theorem resolveSides_ensures {sides : Sides Operand} (h : NamedSides P sides) :
    Ensures (fun size => sides.value? setup.table = some size) (Excused setup P)
      (resolveSides setup sides) := by
  cases sides with
  | fate => exact .pure rfl
  | faces x =>
    rw [resolveSides_faces]
    refine .bind (resolveWithin_ensures h .sides 1 setup.limits.sides) fun n hn => .pure ?_
    rw [Sides.value?, hn.1]
    rfl

end Rolling

end Tabletop
