/-
  What a roll comes to under wider limits.

  1. **Limits are felt in three ways** — a value is out of range, spare rerolls run out, or
     explosions do.  The first is a fault, and of the others an event tells.  So a roll that went
     well and noted no such event has not felt its limits.
  2. **Wider limits** — `Widens g roll wide` says that such a run of `roll` is a run of `wide`, too:
     the value is carried over by `g`, and the same is left behind.  It is closed under what rolls
     are put together with.  What is carried over changes only where spare draws are handed on: with
     `extra` more at the beginning, `extra` more are left.
-/
import Tabletop.Proofs.Rolling.Record

namespace Tabletop

/-! ## Limits and events -/

/-- None of the limits is smaller. -/
structure Limits.Le (limits wide : Limits) : Prop where
  explosions : limits.explosions ≤ wide.explosions
  rerolls : limits.rerolls ≤ wide.rerolls
  dice : limits.dice ≤ wide.dice
  sides : limits.sides ≤ wide.sides

instance : LE Limits := ⟨Limits.Le⟩

/-- The same setup under other limits. -/
def Setup.under (setup : Setup) (limits : Limits) : Setup := { setup with limits }

/-- The event tells that a limit cut rerolls or explosions short. -/
def Event.tellsLimit : Event → Bool
  | .rerollLimit _ | .explosionLimit _ => true
  | _ => false

namespace Rolling

/-- The roll adds to the events, and where it adds none that tells of a limit, the wide one makes
    of it what `g` does, leaving the same behind. -/
def Widens {α β : Type} (g : α → β) (roll : Rolling α) (wide : Rolling β) : Prop :=
  ∀ (before after : Ledger) (a : α), roll before = .ok a after →
    ∃ noted : List Event, after.events = before.events ++ noted.toArray ∧
      ((∀ event ∈ noted, event.tellsLimit = false) → wide before = .ok (g a) after)

namespace Widens

variable {α β γ δ : Type} {g : α → β} {f : γ → δ}

/-- What leaves the events alone and goes the same way under all limits. -/
theorem of_silent {roll : Rolling α} {wide : Rolling β}
    (h : ∀ before after a, roll before = .ok a after →
      after.events = before.events ∧ wide before = .ok (g a) after) : Widens g roll wide := by
  intro before after a hok
  obtain ⟨hevents, hwide⟩ := h before after a hok
  exact ⟨[], by simp [hevents], fun _ => hwide⟩

theorem pure (a : α) : Widens g (pure a) (pure (g a)) :=
  of_silent fun before after b h => by
    cases h
    exact ⟨rfl, rfl⟩

/-- What fails has nothing to carry over. -/
theorem refuse (hazard : Hazard) {wide : Rolling β} :
    Widens g (Rolling.refuse hazard : Rolling α) wide :=
  of_silent fun _ _ _ => nofun

theorem note (event : Event) : Widens id (Rolling.note event) (Rolling.note event) := by
  intro before after a h
  cases h
  exact ⟨[event], by simp, fun _ => rfl⟩

/-- Of two rolls in a row neither has told of a limit, if both together have not. -/
theorem bind {roll : Rolling α} {wide : Rolling β} {next : α → Rolling γ} {next' : β → Rolling δ}
    (h : Widens g roll wide) (hnext : ∀ a, Widens f (next a) (next' (g a))) :
    Widens f (roll >>= next) (wide >>= next') := by
  intro before after c hok
  obtain ⟨a, mid, hfirst, hsecond⟩ := Run.bind_eq_ok.mp hok
  obtain ⟨noted, hnoted, hwide⟩ := h before mid a hfirst
  obtain ⟨more, hmore, hwide'⟩ := hnext a mid after c hsecond
  refine ⟨noted ++ more, ?_, fun hquiet => ?_⟩
  · rw [hmore, hnoted, ← Array.toList_inj]
    simp
  · rw [List.forall_mem_append] at hquiet
    exact Run.bind_eq_ok.mpr ⟨g a, mid, hwide hquiet.1, hwide' hquiet.2⟩

/-- A choice goes the same way under all limits if its condition does not hang on them. -/
theorem ite {c : Prop} [Decidable c] {x y : Rolling α} {x' y' : Rolling β}
    (hx : c → Widens g x x') (hy : ¬ c → Widens g y y') :
    Widens g (if c then x else y) (if c then x' else y') := by
  by_cases hc : c
  · rw [if_pos hc, if_pos hc]
    exact hx hc
  · rw [if_neg hc, if_neg hc]
    exact hy hc

end Widens

variable {setup : Setup} {wide : Limits} {sides : Sides Int}

/-! ## Drawing and looking up -/

/-- A draw notes no event. -/
theorem draw_silent {before after : Ledger} {face : Int}
    (h : draw setup sides before = .ok face after) : after.events = before.events := by
  rw [draw] at h
  split at h
  · cases h
    rfl
  · cases h

/-- A die is drawn without an event. -/
theorem drawDie_silent {before after : Ledger} {die : Die}
    (h : drawDie setup sides before = .ok die after) : after.events = before.events := by
  obtain ⟨face, mid, hface, hdie⟩ := Run.bind_eq_ok.mp h
  cases hdie
  exact draw_silent hface

theorem draw_widens : Widens id (draw setup sides) (draw (setup.under wide) sides) :=
  .of_silent fun _ _ _ h => ⟨draw_silent h, h⟩

/-- Draws do not hang on the limits. -/
theorem drawDice_widens (role : Option String) (n : Nat) :
    Widens id (drawDice setup sides role n) (drawDice (setup.under wide) sides role n) := by
  induction n with
  | zero => exact .pure _
  | succ n ih => exact draw_widens.bind fun face => ih.bind fun more => .pure _

/-- The value of an operand does not hang on the limits. -/
theorem resolve_widens (operand : Operand) :
    Widens id (resolve setup operand) (resolve (setup.under wide) operand) := by
  cases operand with
  | number n => exact .pure n
  | named name =>
    refine .of_silent fun before after n h => ⟨?_, h⟩
    rw [resolve] at h
    split at h
    · cases h
      rfl
    · cases h

/-- What is in range is in a wider one. -/
theorem resolveWithin_widens (what : Quantity) (minimum : Int) {maximum maximum' : Int}
    (hle : maximum ≤ maximum') (operand : Operand) :
    Widens id (resolveWithin setup what minimum maximum operand)
      (resolveWithin (setup.under wide) what minimum maximum' operand) := by
  refine (resolve_widens operand).bind fun n => ?_
  show Widens id (if n < minimum ∨ maximum < n then _ else _)
    (if n < minimum ∨ maximum' < n then _ else _)
  by_cases hout : n < minimum ∨ maximum < n
  · rw [if_pos hout]
    exact .refuse _
  · have hin : ¬ (n < minimum ∨ maximum' < n) := by omega
    rw [if_neg hout, if_neg hin]
    exact .pure n

/-! ## Rerolls -/

/-- Spare draws that are not needed are left. -/
theorem chase_of_not_meets {meets : Int → Bool} {face : Int} (h : meets face = false)
    (spare : Nat) : chase setup sides meets face spare = pure ([{ sides, face }], spare) := by
  cases spare with
  | zero =>
    show (if meets face then note _ >>= fun _ => pure _ else pure _) = _
    rw [h]
    rfl
  | succ spare =>
    show (if meets face then _ else _) = _
    rw [h]
    rfl

/-- Induction on the spare draws: when none is left and the last face still meets the condition, an
    event tells. -/
theorem chase_widens (meets : Int → Bool) (extra spare : Nat) :
    ∀ face : Int, Widens (fun r : List Die × Nat => (r.1, r.2 + extra))
      (chase setup sides meets face spare)
      (chase (setup.under wide) sides meets face (spare + extra)) := by
  induction spare with
  | zero =>
    intro face
    cases hmeets : meets face with
    | false =>
      rw [chase_of_not_meets hmeets, chase_of_not_meets hmeets]
      exact .pure _
    | true =>
      -- The wide chase may go on here, but then an event has told of it.
      intro before after r h
      rw [chase, hmeets] at h
      cases h
      refine ⟨[.rerollLimit setup.limits.rerolls], by simp, fun hquiet => ?_⟩
      exact absurd (hquiet _ List.mem_cons_self) (by simp [Event.tellsLimit])
  | succ spare ih =>
    intro face
    have hspare : spare + 1 + extra = spare + extra + 1 := by omega
    rw [hspare]
    refine .ite (fun _ => ?_) fun _ => ?_
    · exact draw_widens.bind fun next => (ih next).bind fun r => .pure _
    · rw [← hspare]
      exact .pure _

/-- With spare draws to add, a die is replaced by the same dice and what was added is left. -/
theorem replace_widens (mode : RerollMode) (meets : Int → Bool) (extra spare : Nat) :
    Widens (fun r : List Die × Nat => (r.1, r.2 + extra)) (replace setup sides mode meets spare)
      (replace (setup.under wide) sides mode meets (spare + extra)) := by
  refine draw_widens.bind fun face => ?_
  cases mode with
  | once => exact .pure _
  | continuous => exact chase_widens meets extra spare face

/-- With spare draws to add, the same dice are replaced and what was added is left: induction on the
    dice. -/
theorem rerollEach_widens (mode : RerollMode) (meets : Int → Bool) (extra : Nat)
    (dice : List Die) :
    ∀ spare : Nat, Widens (fun r : Rerolled => { r with spare := r.spare + extra })
      (rerollEach setup sides mode meets spare dice)
      (rerollEach (setup.under wide) sides mode meets (spare + extra) dice) := by
  induction dice with
  | nil => exact fun spare => .pure _
  | cons die rest ih =>
    intro spare
    refine .ite (fun _ => ?_) fun _ => ?_
    · exact (replace_widens mode meets extra spare).bind fun r => (ih r.2).bind fun _ => .pure _
    · exact (ih spare).bind fun _ => .pure _

/-- Spare draws that were added are handed on to the next modifier: induction on the modifiers. -/
theorem applyRerolls_widens (extra : Nat) (rerolls : List Reroll) :
    ∀ (spare : Nat) (dice : List Die), Widens (fun r : List Die × Nat => (r.1, r.2 + extra))
      (applyRerolls setup sides rerolls spare dice)
      (applyRerolls (setup.under wide) sides rerolls (spare + extra) dice) := by
  induction rerolls with
  | nil => exact fun spare dice => .pure _
  | cons m rest ih =>
    intro spare dice
    exact (resolve_widens m.threshold).bind fun threshold =>
      (rerollEach_widens m.mode _ extra dice spare).bind fun after => ih after.spare _

/-! ## Explosions -/

/-- A scan that passed all dice passes them with more explosions left: induction on the explosions
    left, and inside on the dice, as in the scan itself. -/
theorem scan_under (wide : Limits) (meets : Int → Bool) (extra spare : Nat) :
    ∀ {dice : List Die} {before after : Ledger} {r : Scan},
      scan setup sides meets spare dice before = .ok r after →
        after.events = before.events ∧ ((r.spare = 0 → r.ahead = []) →
          scan (setup.under wide) sides meets (spare + extra) dice before =
            .ok { r with spare := r.spare + extra } after) := by
  have hnil : ∀ {spare : Nat} {before after : Ledger} {r : Scan},
      scan setup sides meets spare [] before = .ok r after →
        after.events = before.events ∧ ((r.spare = 0 → r.ahead = []) →
          scan (setup.under wide) sides meets (spare + extra) [] before =
            .ok { r with spare := r.spare + extra } after) := by
    intro spare before after r h
    rw [scan_nil] at h ⊢
    cases h
    exact ⟨rfl, fun _ => rfl⟩
  induction spare with
  | zero =>
    intro dice before after r h
    cases dice with
    | nil => exact hnil h
    | cons die rest =>
      rw [scan_zero] at h
      cases h
      exact ⟨rfl, fun hpassed => absurd (hpassed rfl) (List.cons_ne_nil die rest)⟩
  | succ left ihspare =>
    intro dice
    induction dice with
    | nil => exact hnil
    | cons die rest ihrest =>
      intro before after r h
      have hspare : left + 1 + extra = left + extra + 1 := by omega
      rw [hspare, scan_cons]
      rw [scan_cons] at h
      split at h
      · next hmeets =>
        -- The extra die is the same in both, and so is what lies ahead then.
        rw [if_pos hmeets]
        obtain ⟨added, mid, hadded, hrest⟩ := Run.bind_eq_ok.mp h
        obtain ⟨r', last, hscan, hpassed⟩ := Run.bind_eq_ok.mp hrest
        cases hpassed
        obtain ⟨hevents, hwide⟩ := ihspare hscan
        refine ⟨hevents.trans (drawDie_silent hadded), fun hall => ?_⟩
        exact Run.bind_eq_ok.mpr
          ⟨added, mid, hadded, Run.bind_eq_ok.mpr ⟨_, _, hwide hall, rfl⟩⟩
      · next hmeets =>
        rw [if_neg hmeets, ← hspare]
        obtain ⟨r', last, hscan, hpassed⟩ := Run.bind_eq_ok.mp h
        cases hpassed
        obtain ⟨hevents, hwide⟩ := ihrest hscan
        exact ⟨hevents, fun hall => Run.bind_eq_ok.mpr ⟨_, _, hwide hall, rfl⟩⟩

/-- The threshold of an explosion does not hang on the limits. -/
theorem explosionThreshold_widens (m : Explosion) :
    Widens id (explosionThreshold setup sides m)
      (explosionThreshold (setup.under wide) sides m) := by
  rw [explosionThreshold, explosionThreshold]
  cases m.threshold with
  | none => exact .pure _
  | some operand => exact resolve_widens operand

/-- A scan that was cut short is told of; and if it was not, as many explosions happened. -/
theorem applyExplosions_widens (hlimit : setup.limits.explosions ≤ wide.explosions)
    (explosions : List Explosion) :
    ∀ (count : Nat) (dice : List Die), Widens id (applyExplosions setup sides explosions count dice)
      (applyExplosions (setup.under wide) sides explosions count dice) := by
  induction explosions with
  | nil => exact fun count dice => .pure _
  | cons m rest ih =>
    intro count dice
    rw [applyExplosions_cons, applyExplosions_cons]
    refine (explosionThreshold_widens m).bind fun threshold => ?_
    -- A limit of the modifier itself is the same in both.
    have hle : m.limit.getD setup.limits.explosions ≤
        m.limit.getD (setup.under wide).limits.explosions := by
      cases m.limit with
      | none => exact hlimit
      | some limit => exact Int.le_refl limit
    generalize m.limit.getD setup.limits.explosions = limit at hle ⊢
    generalize m.limit.getD (setup.under wide).limits.explosions = limit' at hle ⊢
    obtain ⟨extra, hextra⟩ : ∃ extra, (limit' - count).toNat = (limit - count).toNat + extra :=
      Nat.exists_eq_add_of_le (by omega)
    rw [hextra]
    intro before after r h
    obtain ⟨scanned, mid, hscan, hrest⟩ := Run.bind_eq_ok.mp h
    obtain ⟨hevents, hwide⟩ := scan_under wide _ extra _ hscan
    split at hrest
    · next hcut =>
      obtain ⟨_, noted, hnote, hrest'⟩ := Run.bind_eq_ok.mp hrest
      cases hnote
      obtain ⟨more, hmore, -⟩ := ih _ _ _ _ _ hrest'
      refine ⟨.explosionLimit limit :: more, ?_, fun hquiet => ?_⟩
      · rw [hmore, ← Array.toList_inj]
        simp [hevents]
      · exact absurd (hquiet _ List.mem_cons_self) (by simp [Event.tellsLimit])
    · next hwhole =>
      obtain ⟨more, hmore, hwide'⟩ := ih _ _ _ _ _ hrest
      refine ⟨more, by rw [hmore, hevents], fun hquiet => ?_⟩
      have hpassed : scanned.spare = 0 → scanned.ahead = [] := by
        intro hnone
        by_contra hahead
        exact hwhole ⟨hnone, hahead⟩
      refine Run.bind_eq_ok.mpr ⟨_, mid, hwide hpassed, ?_⟩
      have hwhole' : ¬ (scanned.spare + extra = 0 ∧ scanned.ahead ≠ []) := by
        rintro ⟨hnone, hahead⟩
        exact hahead (hpassed (by omega))
      rw [if_neg hwhole', Nat.add_sub_add_right]
      exact hwide' hquiet

/-! ## Selections and success checks -/

/-- Selections do not hang on the limits. -/
theorem applySelections_widens (selections : List Selection) :
    ∀ dice : List Die, Widens id (applySelections setup selections dice)
      (applySelections (setup.under wide) selections dice) := by
  induction selections with
  | nil => exact fun dice => .pure _
  | cons m rest ih =>
    intro dice
    exact (resolve_widens m.count).bind fun count =>
      .ite (fun _ => .refuse _) fun _ => ih _

/-- Success checks do not hang on the limits. -/
theorem resolveChecks_widens (checks : List SuccessCheck) :
    Widens id (resolveChecks setup checks) (resolveChecks (setup.under wide) checks) := by
  induction checks with
  | nil => exact .pure _
  | cons m rest ih =>
    exact (resolve_widens m.threshold).bind fun threshold => ih.bind fun more => .pure _

theorem countUp_widens (checks : List SuccessCheck) (dice : List Die) :
    Widens id (countUp setup checks dice) (countUp (setup.under wide) checks dice) :=
  .ite (fun _ => .pure _) fun _ => (resolveChecks_widens checks).bind fun _ => .pure _

/-! ## Terms -/

/-- A size that is let through is let through under a wider limit. -/
theorem resolveSides_widens (hle : setup.limits.sides ≤ wide.sides) (sides : Sides Operand) :
    Widens id (resolveSides setup sides) (resolveSides (setup.under wide) sides) := by
  cases sides with
  | fate => exact .pure _
  | faces operand =>
    rw [resolveSides_faces, resolveSides_faces]
    exact (resolveWithin_widens .sides 1 hle operand).bind fun n => .pure _

/-- A dice term that feels no limit goes the same way under wider ones. -/
theorem diceTerm_widens (hle : setup.limits ≤ wide) (count : Operand) (sides : Sides Operand)
    (modifiers : List Modifier) :
    Widens id (diceTerm setup count sides modifiers)
      (diceTerm (setup.under wide) count sides modifiers) := by
  obtain ⟨extra, hextra⟩ : ∃ extra, wide.rerolls.toNat = setup.limits.rerolls.toNat + extra :=
    Nat.exists_eq_add_of_le (Int.toNat_le_toNat hle.rerolls)
  unfold diceTerm
  refine (resolveWithin_widens .dice 1 hle.dice count).bind fun n => ?_
  refine (resolveSides_widens hle.sides sides).bind fun size => ?_
  refine (drawDice_widens none _).bind fun first => ?_
  -- The spare rerolls are the only thing that the wide roll hands on with more in it.
  show Widens id _ (applyRerolls (setup.under wide) _ _ wide.rerolls.toNat _ >>= _)
  rw [hextra]
  refine (applyRerolls_widens extra _ _ _).bind fun rerolled => ?_
  refine (applyExplosions_widens hle.explosions _ _ _).bind fun exploded => ?_
  refine (applySelections_widens _ _).bind fun selected => ?_
  refine (countUp_widens _ _).bind fun tally => ?_
  exact (Widens.note _).bind fun _ => .pure _

/-- A Hope/Fear roll that is let through goes the same way under wider limits. -/
theorem hopeFearTerm_widens (hle : setup.limits ≤ wide) (advantage disadvantage : Operand)
    (modifiers : List Modifier) :
    Widens id (hopeFearTerm setup advantage disadvantage modifiers)
      (hopeFearTerm (setup.under wide) advantage disadvantage modifiers) := by
  have hdraws : ∀ m n : Nat,
      Widens id (drawHopeFear setup m n) (drawHopeFear (setup.under wide) m n) := fun m n =>
    draw_widens.bind fun hope => draw_widens.bind fun fear =>
      (drawDice_widens _ m).bind fun helping => (drawDice_widens _ n).bind fun hindering => .pure _
  refine (resolveWithin_widens .advantage 0 hle.dice advantage).bind fun m => ?_
  refine (resolveWithin_widens .disadvantage 0 hle.dice disadvantage).bind fun n => ?_
  exact .ite (fun _ => (Widens.note _).bind fun _ => hdraws m.toNat n.toNat) fun _ =>
    hdraws m.toNat n.toNat

/-! ## Expressions -/

/-- **Limits that are not felt do not matter**: induction on the expression, for any room that is
    left. -/
theorem roll_widens (hle : setup.limits ≤ wide) (expr : Expr) :
    ∀ room : Nat, Widens id (expr.roll setup room) (expr.roll (setup.under wide) room) := by
  induction expr with
  | number n => exact fun room => .pure _
  | named name => exact fun room => (resolve_widens (.named name)).bind fun n => .pure _
  | dice count sides modifiers => exact fun room => diceTerm_widens hle count sides modifiers
  | hopeFear advantage disadvantage modifiers =>
    exact fun room => hopeFearTerm_widens hle advantage disadvantage modifiers
  | missing =>
    intro room
    refine .of_silent fun before after tally h => ?_
    cases h
  | binary op left right ihl ihr =>
    intro room
    cases room with
    | zero => exact .refuse _
    | succ room =>
      rw [roll_binary, roll_binary]
      refine (ihl room).bind fun l => (ihr room).bind fun r => ?_
      rw [id_eq, id_eq]
      cases op.apply l.value r.value with
      | ok value => exact .pure _
      | error hazard => exact .refuse hazard
  | target inner comparison threshold ih =>
    intro room
    cases room with
    | zero => exact .refuse _
    | succ room =>
      exact (ih room).bind fun tally => (resolve_widens threshold).bind fun n => .pure _

end Rolling

end Tabletop
