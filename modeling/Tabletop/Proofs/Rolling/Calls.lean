/-
  What a roll asks of its source, whether it goes well or not.

  1. **Calls** — the calls of a run are its requests, and behind them the one that had no answer, if
     that is what ended the run.
  2. **Few calls** — `Asks B Q F roll` says that each call passes `B`, how many calls there are for
     a value (`Q`), and how many there may be before a failure (`F`).  It is closed under what rolls
     are put together with, so that each function of a roll needs one lemma.
  3. **What dice come to** — rerolls leave as many dice active as there were (`Replaced`), and that
     is why they end: each modifier replaces at most those, and whatever is drawn beyond is paid for
     by a spare draw.  Explosions add one die for each that they mark (`Extended`), and each costs
     one explosion of those left.
-/
import Tabletop.Proofs.Rolling.Ensures
import Tabletop.Proofs.Rolling.Growth
import Tabletop.Proofs.Rolling.Record

namespace Tabletop

/-! ## Calls -/

namespace Rolling

/-- The calls of a run that started at the ledger `before`: its requests, in order, and behind them
    the one without an answer that ended it. -/
inductive Calls {α : Type} (source : Source) (before : Ledger) :
    EStateM.Result Fault Ledger α → List Nat → Prop where
  | ok {a : α} {after : Ledger} {calls : List Nat}
      (made : after.requests = before.requests ++ calls.toArray) :
      Calls source before (.ok a after) calls
  | error {fault : Fault} {after : Ledger} {calls : List Nat}
      (made : after.requests = before.requests ++ calls.toArray)
      (answered : fault ≠ .defect .noDraws) :
      Calls source before (.error fault after) calls
  | dry {after : Ledger} {calls : List Nat} {bound : Nat}
      (made : after.requests = before.requests ++ calls.toArray)
      (unanswered : source after.requests bound = none) :
      Calls source before (.error (.defect .noDraws) after) (calls ++ [bound])

namespace Calls

variable {α β : Type} {source : Source} {before mid : Ledger} {calls more : List Nat}

/-- What ended a run ends every run that begins with it. -/
theorem cast_error {fault : Fault} {after : Ledger}
    (h : Calls source before (.error fault after : EStateM.Result Fault Ledger α) calls) :
    Calls source before (.error fault after : EStateM.Result Fault Ledger β) calls := by
  cases h with
  | error made answered => exact .error made answered
  | dry made unanswered => exact .dry made unanswered

/-- The calls of a run that goes on stand before those of the run that it goes on with. -/
theorem append {a : α} {result : EStateM.Result Fault Ledger β}
    (h : Calls source before (.ok a mid : EStateM.Result Fault Ledger α) calls)
    (hmore : Calls source mid result more) : Calls source before result (calls ++ more) := by
  cases h with
  | ok made =>
    have hjoined : ∀ {after : Ledger} {later : List Nat},
        after.requests = mid.requests ++ later.toArray →
          after.requests = before.requests ++ (calls ++ later).toArray := by
      intro after later hlater
      rw [hlater, made, ← Array.toList_inj]
      simp
    cases hmore with
    | ok made' => exact .ok (hjoined made')
    | error made' answered => exact .error (hjoined made') answered
    | dry made' unanswered =>
      rw [← List.append_assoc]
      exact .dry (hjoined made') unanswered

/-- Of what was left behind before, calls look at the requests only. -/
theorem of_requests {start : Ledger} {result : EStateM.Result Fault Ledger α}
    (h : Calls source before result calls) (hsame : start.requests = before.requests) :
    Calls source start result calls := by
  cases h with
  | ok made => exact .ok (hsame ▸ made)
  | error made answered => exact .error (hsame ▸ made) answered
  | dry made unanswered => exact .dry (hsame ▸ made) unanswered

/-- A run that failed although every request was answered has made its requests and no other
    call. -/
theorem requests_of_error {fault : Fault} {after : Ledger}
    (h : Calls source before (.error fault after : EStateM.Result Fault Ledger α) calls)
    (hfault : fault ≠ .defect .noDraws) : after.requests = before.requests ++ calls.toArray := by
  cases h with
  | error made answered => exact made
  | dry made unanswered => exact absurd rfl hfault

/-- Where no request was made the calls are none. -/
theorem nil_of_ok {a : α} {after : Ledger} (h : after.requests = before.requests) :
    Calls source before (.ok a after) [] :=
  .ok (by rw [h]; simp)

end Calls

/-! ## Few calls -/

/-- From whatever ledger the roll starts, each of its calls passes `B`; the number of calls stands
    in the relation `Q` to the value, and it passes `F` if the roll fails. -/
def Asks {α : Type} (source : Source) (B : Nat → Prop) (Q : Nat → α → Prop) (F : Nat → Prop)
    (roll : Rolling α) : Prop :=
  ∀ before : Ledger, ∃ calls : List Nat, Calls source before (roll before) calls ∧
    (∀ bound ∈ calls, B bound) ∧
      (∀ a after, roll before = .ok a after → Q calls.length a) ∧
        ∀ fault after, roll before = .error fault after → F calls.length

namespace Asks

variable {α β : Type} {source : Source} {B : Nat → Prop} {Q : Nat → α → Prop}
  {S : Nat → β → Prop} {F G : Nat → Prop}

/-- Less may be said of how many dice are asked for. -/
theorem mono {Q' : Nat → α → Prop} {roll : Rolling α} (h : Asks source B Q F roll)
    (hQ : ∀ k a, Q k a → Q' k a) (hF : ∀ k, F k → G k) : Asks source B Q' G roll := by
  intro before
  obtain ⟨calls, hcalls, hbounds, hvalue, hfault⟩ := h before
  exact ⟨calls, hcalls, hbounds, fun a after hok => hQ _ _ (hvalue a after hok),
    fun fault after herror => hF _ (hfault fault after herror)⟩

theorem pure {a : α} (h : Q 0 a) : Asks source B Q F (pure a) := by
  intro before
  have hrun : (Pure.pure a : Rolling α) before = .ok a before := rfl
  rw [hrun]
  refine ⟨[], .nil_of_ok rfl, by simp, ?_, fun _ _ => nofun⟩
  rintro _ _ ⟨⟩
  exact h

theorem refuse {hazard : Hazard} (h : F 0) : Asks source B Q F (Rolling.refuse hazard) := by
  intro before
  refine ⟨[], .error (by simp) (by simp), by simp, fun _ _ => nofun, ?_⟩
  rintro _ _ ⟨⟩
  exact h

/-- Of two rolls in a row the calls of the second are counted on from those of the first. -/
theorem bind {roll : Rolling α} {next : α → Rolling β} (h : Asks source B Q F roll)
    (hF : ∀ k, F k → G k)
    (hnext : ∀ k a, Q k a →
      Asks source B (fun more b => S (k + more) b) (fun more => G (k + more)) (next a)) :
    Asks source B S G (roll >>= next) := by
  intro before
  obtain ⟨calls, hcalls, hbounds, hvalue, hfault⟩ := h before
  cases hroll : roll before with
  | error fault after =>
    rw [hroll] at hcalls
    rw [Run.bind_of_error hroll]
    refine ⟨calls, hcalls.cast_error, hbounds, fun _ _ => nofun, ?_⟩
    rintro _ _ ⟨⟩
    exact hF _ (hfault fault after hroll)
  | ok a mid =>
    obtain ⟨more, hmore, hbounds', hvalue', hfault'⟩ := hnext _ a (hvalue a mid hroll) mid
    rw [hroll] at hcalls
    rw [Run.bind_of_ok hroll]
    refine ⟨calls ++ more, hcalls.append hmore, ?_, ?_, ?_⟩
    · intro bound hbound
      rcases List.mem_append.mp hbound with hbound | hbound
      · exact hbounds bound hbound
      · exact hbounds' bound hbound
    · rw [List.length_append]
      exact hvalue'
    · rw [List.length_append]
      exact hfault'

/-- A choice asks for what both of its ways may ask for. -/
theorem ite {c : Prop} [Decidable c] {x y : Rolling α} (hx : c → Asks source B Q F x)
    (hy : ¬ c → Asks source B Q F y) : Asks source B Q F (if c then x else y) := by
  by_cases hc : c
  · rw [if_pos hc]
    exact hx hc
  · rw [if_neg hc]
    exact hy hc

end Asks

/-! ## Rolls that ask nothing -/

/-- Where nothing is to be known of value and fault, all rolls ensure it. -/
theorem Ensures.any {α : Type} {roll : Rolling α} :
    Ensures (fun _ => True) (fun _ => True) roll :=
  ⟨fun _ => trivial, fun _ => trivial⟩

/-- What the number of calls tells of a value holds of it beside what the roll ensures. -/
theorem Asks.ensures {α : Type} {source : Source} {B : Nat → Prop} {Q : Nat → α → Prop}
    {F : Nat → Prop} {S : α → Prop} {R : Fault → Prop} {roll : Rolling α}
    (h : Asks source B Q F roll) (hvalue : Ensures S R roll) :
    Ensures (fun a => (∃ k, Q k a) ∧ S a) R roll := by
  refine ⟨fun {before after a} hok => ?_, hvalue.fault⟩
  obtain ⟨calls, -, -, hcalls, -⟩ := h before
  exact ⟨⟨calls.length, hcalls a after hok⟩, hvalue.value hok⟩

/-- The roll asks its source for nothing. -/
def Still {α : Type} (source : Source) (roll : Rolling α) : Prop :=
  Asks source (fun _ => False) (fun _ _ => True) (fun _ => True) roll

namespace Still

variable {α β : Type} {source : Source} {B : Nat → Prop} {Q : α → Prop} {R : Fault → Prop}
  {S : Nat → β → Prop} {F : Nat → Prop}

theorem bind {roll : Rolling α} {next : α → Rolling β} (h : Still source roll)
    (hnext : ∀ a, Still source (next a)) : Still source (roll >>= next) :=
  Asks.bind h (fun _ h => h) fun _ a _ => hnext a

/-- What asks for nothing makes no call. -/
theorem calls {roll : Rolling α} (h : Still source roll) (before : Ledger) :
    Calls source before (roll before) [] := by
  obtain ⟨calls, hcalls, hnone, -, -⟩ := h before
  obtain rfl : calls = [] := List.eq_nil_iff_forall_not_mem.mpr hnone
  exact hcalls

/-- Its value is what it ensures. -/
theorem asks {roll : Rolling α} (h : Still source roll) (hvalue : Ensures Q R roll) :
    Asks source B (fun k a => k = 0 ∧ Q a) (· = 0) roll := fun before =>
  ⟨[], h.calls before, by simp, fun _ _ hok => ⟨rfl, hvalue.value hok⟩, fun _ _ _ => rfl⟩

/-- Before what asks for nothing, calls are not counted. -/
theorem bind_asks {roll : Rolling α} {next : α → Rolling β} (h : Still source roll)
    (hvalue : Ensures Q R roll) (hF : F 0) (hnext : ∀ a, Q a → Asks source B S F (next a)) :
    Asks source B S F (roll >>= next) := by
  refine Asks.bind (h.asks hvalue) ?_ ?_
  · rintro _ rfl
    exact hF
  · rintro _ a ⟨rfl, ha⟩
    simpa only [Nat.zero_add] using hnext a ha

end Still

variable {setup : Setup} {sides : Sides Int} {B : Nat → Prop}

theorem note_still (event : Event) : Still setup.source (note event) := by
  intro before
  exact ⟨[], .nil_of_ok rfl, by simp, fun _ _ _ => trivial, fun _ _ _ => trivial⟩

/-- Whether an event is noted on the way makes no call. -/
theorem noteIf_asks {α : Type} {Q : Nat → α → Prop} {F : Nat → Prop} {c : Prop} [Decidable c]
    (event : Event) {next : Rolling α} (hF : F 0) (h : Asks setup.source B Q F next) :
    Asks setup.source B Q F (if c then note event >>= fun _ => next else next) :=
  .ite (fun _ => (note_still event).bind_asks .any hF fun _ _ => h) fun _ => h

/-- Looking up an operand asks for no dice. -/
theorem resolve_still (operand : Operand) : Still setup.source (resolve setup operand) := by
  cases operand with
  | number n => exact Asks.pure trivial
  | named name =>
    intro before
    rw [resolve]
    cases setup.table.get? name with
    | some n => exact ⟨[], .nil_of_ok rfl, by simp, fun _ _ _ => trivial, fun _ _ _ => trivial⟩
    | none =>
      exact ⟨[], .error (by simp) (by simp), by simp, fun _ _ _ => trivial, fun _ _ _ => trivial⟩

theorem resolveWithin_still (what : Quantity) (minimum maximum : Int) (operand : Operand) :
    Still setup.source (resolveWithin setup what minimum maximum operand) :=
  (resolve_still operand).bind fun _ => Asks.ite (fun _ => .refuse trivial) fun _ => .pure trivial

theorem resolveSides_still (sides : Sides Operand) :
    Still setup.source (resolveSides setup sides) := by
  cases sides with
  | fate => exact Asks.pure trivial
  | faces operand =>
    rw [resolveSides_faces]
    exact (resolveWithin_still _ _ _ _).bind fun _ => Asks.pure trivial

theorem explosionThreshold_still (m : Explosion) :
    Still setup.source (explosionThreshold setup sides m) := by
  rw [explosionThreshold]
  cases m.threshold with
  | none => exact Asks.pure trivial
  | some operand => exact resolve_still operand

/-- Selections ask for no dice: induction on the modifiers. -/
theorem applySelections_still (selections : List Selection) :
    ∀ dice : List Die, Still setup.source (applySelections setup selections dice) := by
  induction selections with
  | nil => exact fun dice => Asks.pure trivial
  | cons m rest ih =>
    intro dice
    exact (resolve_still m.count).bind fun count =>
      Asks.ite (fun _ => .refuse trivial) fun _ => ih _

theorem resolveChecks_still (checks : List SuccessCheck) :
    Still setup.source (resolveChecks setup checks) := by
  induction checks with
  | nil => exact Asks.pure trivial
  | cons m rest ih =>
    exact (resolve_still m.threshold).bind fun threshold => ih.bind fun more => Asks.pure trivial

/-- Counting up asks for no dice. -/
theorem countUp_still (checks : List SuccessCheck) (dice : List Die) :
    Still setup.source (countUp setup checks dice) :=
  Asks.ite (fun _ => .pure trivial) fun _ =>
    (resolveChecks_still checks).bind fun _ => Asks.pure trivial

/-! ## Drawing dice -/

/-- A draw asks for one die, answered or not. -/
theorem draw_asks (hB : B sides.bound) :
    Asks setup.source B (fun k _ => k = 1) (· = 1) (draw setup sides) := by
  intro before
  rw [draw]
  cases hanswer : setup.source before.requests sides.bound with
  | some n =>
    refine ⟨[sides.bound], .ok ?_, by simpa using hB, fun _ _ _ => rfl, fun _ _ _ => rfl⟩
    rw [← Array.toList_inj]
    simp
  | none =>
    -- The request without an answer is a call, too.
    have hcalls : Calls setup.source before
        (.error (.defect .noDraws) before : EStateM.Result Fault Ledger Int)
        ([] ++ [sides.bound]) := .dry (by simp) hanswer
    exact ⟨[sides.bound], hcalls, by simpa using hB, fun _ _ _ => rfl, fun _ _ _ => rfl⟩

theorem drawDie_asks (hB : B sides.bound) :
    Asks setup.source B (fun k die => k = 1 ∧ ∃ face, die = { sides, face }) (· = 1)
      (drawDie setup sides) := by
  show Asks _ _ _ _ (draw setup sides >>= fun face => pure ({ sides, face } : Die))
  refine (draw_asks hB).bind (fun _ h => h) ?_
  rintro _ face rfl
  exact .pure ⟨rfl, face, rfl⟩

/-- So many dice are asked for, or fewer where one is not answered: induction on their number. -/
theorem drawDice_asks (hB : B sides.bound) (role : Option String) (n : Nat) :
    Asks setup.source B (fun k dice => k = n ∧ dice.length = n) (· ≤ n)
      (drawDice setup sides role n) := by
  induction n with
  | zero => exact .pure ⟨rfl, rfl⟩
  | succ n ih =>
    rw [drawDice_succ]
    refine (draw_asks hB).bind (fun k hk => by omega) ?_
    rintro _ face rfl
    refine ih.bind (fun k hk => by omega) ?_
    rintro k more ⟨hk, hlength⟩
    refine .pure ⟨by omega, ?_⟩
    rw [List.length_cons, hlength]

/-! ## Rerolls -/

/-- Every round but the last costs a spare draw, and marks the die that it began with: induction on
    the spare draws. -/
theorem chase_asks (hB : B sides.bound) (meets : Int → Bool) (spare : Nat) :
    ∀ face : Int, Asks setup.source B (fun k r => k + r.2 = spare ∧ Chain r.1)
      (· ≤ spare) (chase setup sides meets face spare) := by
  induction spare with
  | zero =>
    intro face
    have hlast : Asks setup.source B (fun k (r : List Die × Nat) => k + r.2 = 0 ∧ Chain r.1)
        (· ≤ 0) (pure ([{ sides, face }], 0)) := .pure ⟨rfl, .drawn sides face⟩
    exact noteIf_asks (c := meets face) (.rerollLimit setup.limits.rerolls) (Nat.le_refl 0) hlast
  | succ spare ih =>
    intro face
    rw [chase_succ]
    refine .ite (fun _ => (draw_asks hB).bind (fun k hk => by omega) ?_)
      fun _ => .pure ⟨Nat.zero_add _, .drawn sides face⟩
    rintro _ next rfl
    refine (ih next).bind (fun k hk => by omega) ?_
    rintro k ⟨more, left⟩ ⟨hspent, hchain⟩
    have hleft : k + left = spare := hspent
    exact .pure ⟨by show 1 + (k + 0) + left = spare + 1; omega, hchain.cons sides face⟩

/-- A replaced die costs a draw, and whatever is drawn beyond comes out of the spare draws. -/
theorem replace_asks (hB : B sides.bound) (mode : RerollMode) (meets : Int → Bool) (spare : Nat) :
    Asks setup.source B (fun k r => k + r.2 = spare + 1 ∧ Chain r.1)
      (· ≤ spare + 1) (replace setup sides mode meets spare) := by
  cases mode with
  | once =>
    show Asks _ _ _ _ (draw setup sides >>= fun face => pure ([({ sides, face } : Die)], spare))
    refine (draw_asks hB).bind (fun k hk => by omega) ?_
    rintro _ face rfl
    exact .pure ⟨Nat.add_comm _ _, .drawn sides face⟩
  | continuous =>
    show Asks _ _ _ _ (draw setup sides >>= fun face => chase setup sides meets face spare)
    refine (draw_asks hB).bind (fun k hk => by omega) ?_
    rintro _ face rfl
    refine (chase_asks hB meets spare face).mono ?_ (fun k hk => by omega)
    rintro k r ⟨hspent, hchain⟩
    exact ⟨by omega, hchain⟩

/-- Of the dice looked at only the active ones are replaced, so that they bound the draws together
    with the spare ones: induction on the dice. -/
theorem rerollEach_asks (hB : B sides.bound) (mode : RerollMode) (meets : Int → Bool)
    (dice : List Die) :
    ∀ spare : Nat, Asks setup.source B
      (fun k r => k + r.spare ≤ spare + dice.countP (·.active) ∧
        Replaced dice (r.marked ++ r.added))
      (· ≤ spare + dice.countP (·.active)) (rerollEach setup sides mode meets spare dice) := by
  induction dice with
  | nil => exact fun spare => .pure ⟨by simp, .refl _⟩
  | cons die rest ih =>
    intro spare
    rw [rerollEach_cons]
    refine .ite (fun hmeets => ?_) fun _ => ?_
    · have hactive : die.active = true := (Bool.and_eq_true_iff.mp hmeets).1
      have hcount : (die :: rest).countP (·.active) = rest.countP (·.active) + 1 :=
        List.countP_cons_of_pos hactive
      refine (replace_asks hB mode meets spare).bind (fun k hk => by omega) ?_
      rintro k ⟨new, left⟩ ⟨hspent, hchain⟩
      have hleft : k + left = spare + 1 := hspent
      refine (ih left).bind (fun k' hk' => by omega) ?_
      rintro k' after ⟨hspent', hreplaced⟩
      refine .pure ⟨?_, hreplaced.mark hactive hchain⟩
      show k + (k' + 0) + after.spare ≤ _
      omega
    · have hle : rest.countP (·.active) ≤ (die :: rest).countP (·.active) :=
        (List.sublist_cons_self die rest).countP_le
      refine (ih spare).bind (fun k hk => by omega) ?_
      rintro k after ⟨hspent, hreplaced⟩
      refine .pure ⟨?_, hreplaced.pass die⟩
      show k + 0 + after.spare ≤ _
      omega

/-- As many dice are active after a modifier as before it, so that the next one replaces no more
    of them: induction on the modifiers. -/
theorem applyRerolls_asks (hB : B sides.bound) (rerolls : List Reroll) :
    ∀ (spare : Nat) (dice : List Die), Asks setup.source B
      (fun k r => k + r.2 ≤ spare + dice.countP (·.active) * rerolls.length ∧ Replaced dice r.1)
      (· ≤ spare + dice.countP (·.active) * rerolls.length)
      (applyRerolls setup sides rerolls spare dice) := by
  induction rerolls with
  | nil => exact fun spare dice => .pure ⟨by simp, .refl _⟩
  | cons m rest ih =>
    intro spare dice
    rw [applyRerolls_cons, List.length_cons, Nat.mul_add_one]
    refine (resolve_still m.threshold).bind_asks .any (Nat.zero_le _) fun threshold _ => ?_
    refine (rerollEach_asks hB m.mode _ dice spare).bind (fun k hk => by omega) ?_
    rintro k after ⟨hspent, hreplaced⟩
    have hrest := ih after.spare (after.marked ++ after.added)
    rw [hreplaced.active] at hrest
    refine hrest.mono ?_ (fun k' hk' => by omega)
    rintro k' r ⟨hspent', hreplaced'⟩
    exact ⟨by omega, hreplaced.trans hreplaced'⟩

/-! ## Explosions -/

/-- Each draw is an explosion spent.  As in the scan itself the induction is on the explosions left,
    and inside on the dice. -/
theorem scan_asks (hB : B sides.bound) (meets : Int → Bool) (spare : Nat) :
    ∀ dice : List Die, Asks setup.source B
      (fun k r => k + r.spare = spare ∧ Extended dice (r.passed ++ r.ahead))
      (· ≤ spare) (scan setup sides meets spare dice) := by
  induction spare with
  | zero =>
    intro dice
    rw [scan_zero]
    exact .pure ⟨rfl, .refl _⟩
  | succ left ihspare =>
    intro dice
    induction dice with
    | nil =>
      rw [scan_nil]
      exact .pure ⟨Nat.zero_add _, .refl _⟩
    | cons die rest ihrest =>
      rw [scan_cons]
      refine .ite (fun hmeets => ?_) fun _ => ?_
      · have hfresh : die.exploded = false := by
          simp only [Bool.and_eq_true, Bool.not_eq_true'] at hmeets
          exact hmeets.1.2
        refine (drawDie_asks hB).bind (fun k hk => by omega) ?_
        rintro _ _ ⟨rfl, face, rfl⟩
        refine (ihspare _).bind (fun k hk => by omega) ?_
        rintro k r ⟨hspent, hextended⟩
        refine .pure ⟨?_, hextended.mark hfresh⟩
        show 1 + (k + 0) + r.spare = left + 1
        omega
      · refine ihrest.bind (fun k hk => hk) ?_
        rintro k r ⟨hspent, hextended⟩
        exact .pure ⟨hspent, hextended.pass die⟩

/-- Explosions are counted over all modifiers, so that no more happen than the largest limit in
    force allows: induction on the modifiers. -/
theorem applyExplosions_asks (hB : B sides.bound) {limit : Nat} (explosions : List Explosion) :
    (∀ m ∈ explosions, m.limit.getD setup.limits.explosions ≤ limit) →
      ∀ (count : Nat) (dice : List Die), Asks setup.source B
        (fun k r => count + k ≤ max count limit ∧ Extended dice r)
        (fun k => count + k ≤ max count limit)
        (applyExplosions setup sides explosions count dice) := by
  induction explosions with
  | nil => exact fun _ count dice => .pure ⟨Nat.le_max_left _ _, .refl _⟩
  | cons m rest ih =>
    intro hlimit count dice
    rw [List.forall_mem_cons] at hlimit
    obtain ⟨hfirst, hrest⟩ := hlimit
    rw [applyExplosions_cons]
    refine (explosionThreshold_still m).bind_asks .any (Nat.le_max_left _ _) fun threshold _ => ?_
    refine (scan_asks hB _ _ dice).bind (fun k hk => by omega) ?_
    rintro k after ⟨hspent, hextended⟩
    refine noteIf_asks _ (by omega) ((ih hrest _ _).mono ?_ ?_)
    · rintro k' r ⟨hcount, hextended'⟩
      exact ⟨by omega, hextended.trans hextended'⟩
    · intro k' hcount
      omega

end Rolling

end Tabletop
