/-
  The order in which modifiers are written.

  1. **Kinds** — a dice term picks out of its modifiers those of one kind after the other.  So how
     the kinds are mixed makes no difference, as long as those of each kind follow each other as
     before.
  2. **Success checks** — a die is marked if it meets any of them, whichever comes first.  Where all
     of them have values, their own order shows only in which variable was looked up first.
-/
import Tabletop.Proofs.Rolling.Ensures
import Tabletop.Proofs.Rolling.Record

namespace Tabletop

/-! ## Modifiers in another order -/

/-- The kinds of modifiers, in the order in which they take effect. -/
inductive Modifier.Kind where
  | reroll
  | explosion
  | selection
  | successCheck
  deriving DecidableEq, Repr

namespace Modifier

/-- The kind of a modifier. -/
def kind : Modifier → Kind
  | reroll _ => .reroll
  | explosion _ => .explosion
  | selection _ => .selection
  | successCheck _ => .successCheck

/-- The modifiers of one kind, in order. -/
def ofKind (kind : Kind) (modifiers : List Modifier) : List Modifier :=
  modifiers.filter (·.kind = kind)

/-- The same modifiers in another order, where the order inside each kind that passes `p` is
    kept. -/
structure Rearranged (p : Kind → Prop) (modifiers others : List Modifier) : Prop where
  perm : modifiers.Perm others
  kept : ∀ kind, p kind → ofKind kind others = ofKind kind modifiers

/-- What picks modifiers of one kind only picks the same out of those of the kind. -/
theorem filterMap_ofKind {α : Type} {kind : Kind} {pick : Modifier → Option α}
    (hpick : ∀ m : Modifier, m.kind ≠ kind → pick m = none) (modifiers : List Modifier) :
    (ofKind kind modifiers).filterMap pick = modifiers.filterMap pick := by
  rw [ofKind, List.filterMap_filter]
  refine List.filterMap_congr fun m _ => ?_
  by_cases hm : m.kind = kind
  · simp [hm]
  · simp [hm, hpick m hm]

namespace Rearranged

variable {p q : Kind → Prop} {modifiers others : List Modifier}

theorem mono (h : Rearranged p modifiers others) (hq : ∀ kind, q kind → p kind) :
    Rearranged q modifiers others :=
  ⟨h.perm, fun kind hkind => h.kept kind (hq kind hkind)⟩

/-- What is picked of one kind is picked in the same order, if that kind is left in order. -/
theorem filterMap_eq (h : Rearranged p modifiers others) {α : Type} {kind : Kind}
    {pick : Modifier → Option α} (hpick : ∀ m : Modifier, m.kind ≠ kind → pick m = none)
    (hkind : p kind) : others.filterMap pick = modifiers.filterMap pick := by
  rw [← filterMap_ofKind hpick others, h.kept kind hkind, filterMap_ofKind hpick]

theorem rerolls_eq (h : Rearranged p modifiers others) (hkind : p .reroll) :
    rerolls others = rerolls modifiers :=
  h.filterMap_eq (fun m hm => by cases m <;> first | rfl | exact absurd rfl hm) hkind

theorem explosions_eq (h : Rearranged p modifiers others) (hkind : p .explosion) :
    explosions others = explosions modifiers :=
  h.filterMap_eq (fun m hm => by cases m <;> first | rfl | exact absurd rfl hm) hkind

theorem selections_eq (h : Rearranged p modifiers others) (hkind : p .selection) :
    selections others = selections modifiers :=
  h.filterMap_eq (fun m hm => by cases m <;> first | rfl | exact absurd rfl hm) hkind

theorem successChecks_eq (h : Rearranged p modifiers others) (hkind : p .successCheck) :
    successChecks others = successChecks modifiers :=
  h.filterMap_eq (fun m hm => by cases m <;> first | rfl | exact absurd rfl hm) hkind

/-- Whatever is kept, the same success checks are made. -/
theorem successChecks_perm (h : Rearranged p modifiers others) :
    (successChecks modifiers).Perm (successChecks others) :=
  h.perm.filterMap _

end Rearranged

end Modifier

namespace Rolling

open Modifier

variable {setup : Setup} {modifiers others : List Modifier}

/-! ## How the kinds are mixed -/

/-- The dice that are selected do not hang on the success checks. -/
theorem selectDice_rearranged (h : Rearranged (· ≠ .successCheck) modifiers others)
    (count : Operand) (sides : Sides Operand) :
    selectDice setup count sides others = selectDice setup count sides modifiers := by
  rw [selectDice, selectDice, h.rerolls_eq (by decide), h.explosions_eq (by decide),
    h.selections_eq (by decide)]

/-- How the kinds are mixed makes no difference at all. -/
theorem diceTerm_rearranged (h : Rearranged (fun _ => True) modifiers others) (count : Operand)
    (sides : Sides Operand) :
    diceTerm setup count sides others = diceTerm setup count sides modifiers := by
  have hconclude : concludeDice setup others = concludeDice setup modifiers := by
    funext selected
    rw [concludeDice, concludeDice, h.successChecks_eq trivial, h.perm.length_eq]
  rw [diceTerm_eq, diceTerm_eq, selectDice_rearranged (h.mono fun _ _ => trivial), hconclude]

/-! ## Success checks in another order -/

/-- A check with the value that it compares with. -/
def valued (table : Bindings Int) (check : SuccessCheck) : Comparison × Int :=
  (check.comparison, (check.threshold.value? table).getD 0)

/-- The variable that an operand looks up, with its value. -/
def lookup? (table : Bindings Int) : Operand → Option (String × Int)
  | .number _ => none
  | .named name => (table.get? name).map fun n => (name, n)

/-- The variables that checks look up, in order. -/
def lookedUp (table : Bindings Int) (checks : List SuccessCheck) : List (String × Int) :=
  checks.filterMap fun check => lookup? table check.threshold

/-- What success checks look up are values of the table. -/
theorem agree_lookedUp (table : Bindings Int) (checks : List SuccessCheck) :
    Bindings.Agree table.get? (lookedUp table checks) := by
  intro entry hentry
  obtain ⟨check, -, hcheck⟩ := List.mem_filterMap.mp hentry
  cases hthreshold : check.threshold with
  | number n =>
    rw [hthreshold] at hcheck
    cases hcheck
  | named name =>
    rw [hthreshold] at hcheck
    obtain ⟨n, hn, rfl⟩ := Option.map_eq_some_iff.mp hcheck
    exact hn

/-- Checks that have values are looked up one after the other, and nothing can go wrong: induction
    on the checks. -/
theorem resolveChecks_of_defined {checks : List SuccessCheck}
    (hdefined : ∀ check ∈ checks, (check.threshold.value? setup.table).isSome = true) :
    ∀ ledger : Ledger, resolveChecks setup checks ledger =
      .ok (checks.map (valued setup.table))
        { ledger with used := ledger.used.bindAll (lookedUp setup.table checks) } := by
  induction checks with
  | nil => exact fun ledger => rfl
  | cons check rest ih =>
    rw [List.forall_mem_cons] at hdefined
    obtain ⟨hfirst, hrest⟩ := hdefined
    intro ledger
    obtain ⟨n, hn⟩ := Option.isSome_iff_exists.mp hfirst
    have hvalued : valued setup.table check = (check.comparison, n) := by
      rw [valued, hn]
      rfl
    rw [resolveChecks_cons, List.map_cons, hvalued, lookedUp, List.filterMap_cons]
    -- A number looks up nothing, a name leaves its entry behind.
    cases hthreshold : check.threshold with
    | number m =>
      rw [hthreshold] at hn
      cases hn
      exact Run.bind_of_ok (ih hrest ledger)
    | named name =>
      rw [hthreshold] at hn
      have hget : setup.table.get? name = some n := hn
      have hlook : lookup? setup.table (.named name) = some (name, n) := by
        rw [lookup?, hget]
        rfl
      have hresolve : resolve setup (.named name) ledger =
          .ok n { ledger with used := ledger.used.insert name n } := by
        simp only [resolve, hget]
      rw [hlook, Run.bind_of_ok hresolve]
      exact Run.bind_of_ok (ih hrest _)

/-- The tally of dice that are held against values. -/
def tallied (values : List (Comparison × Int)) (dice : List Die) : Tally :=
  if values.isEmpty then { value := activeSum dice, dice }
  else
    { value := successCount (markSuccesses values dice)
      dice := markSuccesses values dice
      successes := some (successCount (markSuccesses values dice)) }

/-- Where all thresholds are defined, counting up goes well and looks each of them up. -/
theorem countUp_of_defined {checks : List SuccessCheck}
    (hdefined : ∀ check ∈ checks, (check.threshold.value? setup.table).isSome = true)
    (dice : List Die) (ledger : Ledger) :
    countUp setup checks dice ledger = .ok (tallied (checks.map (valued setup.table)) dice)
      { ledger with used := ledger.used.bindAll (lookedUp setup.table checks) } := by
  cases checks with
  | nil => rfl
  | cons check rest => exact Run.bind_of_ok (resolveChecks_of_defined hdefined ledger)

/-- Of the values that dice are held against the order does not count. -/
theorem tallied_perm {values others : List (Comparison × Int)} (h : values.Perm others)
    (dice : List Die) : tallied values dice = tallied others dice := by
  have hmarks : markSuccesses values dice = markSuccesses others dice := by
    refine List.map_congr_left fun die _ => ?_
    rw [h.any_eq]
  rw [tallied, tallied, hmarks, h.isEmpty_eq]

/-- The same came of two runs, but that the variables they looked up may stand in another order. -/
inductive Alike {α : Type} :
    EStateM.Result Fault Ledger α → EStateM.Result Fault Ledger α → Prop where
  | ok {a : α} {after after' : Ledger} (requests : after'.requests = after.requests)
      (used : after.used.Perm after'.used) : Alike (.ok a after) (.ok a after')
  | error {fault : Fault} {after after' : Ledger} (requests : after'.requests = after.requests) :
      Alike (.error fault after) (.error fault after')

/-- Dice that are concluded with their success checks in another order. -/
theorem concludeDice_alike (h : Rearranged (· ≠ .successCheck) modifiers others)
    (hdefined : ∀ check ∈ successChecks modifiers,
      (check.threshold.value? setup.table).isSome = true)
    (selected : Selected) {ledger : Ledger} (hagree : Bindings.Agree setup.table.get? ledger.used)
    (hnodup : ledger.used.names.Nodup) :
    Alike (concludeDice setup modifiers selected ledger)
      (concludeDice setup others selected ledger) := by
  have hchecks := h.successChecks_perm
  have hdefined' : ∀ check ∈ successChecks others,
      (check.threshold.value? setup.table).isSome = true :=
    fun check hcheck => hdefined check (hchecks.mem_iff.mpr hcheck)
  have hsame := tallied_perm (hchecks.map (valued setup.table)) selected.dice
  have hlookedUp : (lookedUp setup.table (successChecks modifiers)).Perm
      (lookedUp setup.table (successChecks others)) := hchecks.filterMap _
  have hused := Bindings.bindAll_perm hagree hnodup (agree_lookedUp setup.table _) hlookedUp
  have hrun := countUp_of_defined hdefined selected.dice ledger
  have hrun' := countUp_of_defined hdefined' selected.dice ledger
  rw [concludeDice, concludeDice, Run.bind_of_ok hrun, Run.bind_of_ok hrun', ← hsame]
  exact .ok rfl hused

/-- A dice term whose success checks are written in another order comes to the same, with the same
    variables. -/
theorem diceTerm_alike (h : Rearranged (· ≠ .successCheck) modifiers others)
    (hdefined : ∀ check ∈ successChecks modifiers,
      (check.threshold.value? setup.table).isSome = true)
    (count : Operand) (sides : Sides Operand) {start : Ledger} (hstart : start.used = []) :
    Alike (diceTerm setup count sides modifiers start)
      (diceTerm setup count sides others start) := by
  rw [diceTerm_eq, diceTerm_eq, selectDice_rearranged h]
  cases hselect : selectDice setup count sides modifiers start with
  | error fault mid =>
    rw [Run.bind_of_error hselect, Run.bind_of_error hselect]
    exact .error rfl
  | ok selected mid =>
    rw [Run.bind_of_ok hselect, Run.bind_of_ok hselect]
    -- What was looked up for the dice is there in the same order, each name once.
    obtain ⟨steps, hgiven, -, -, rfl, -⟩ := (selectDice_traced (named_any count)
      (namedSides_any sides) fun m _ => namedIn_any m).of_eq_ok hselect
    have hpairs := ((given_iff _ _ _).mp hgiven).2
    have hnone : Bindings.Agree setup.table.get? ([] : Bindings Int) := fun _ => nofun
    refine concludeDice_alike h hdefined selected ?_ ?_
    · rw [used_after, hstart]
      exact hnone.bindAll hpairs
    · rw [used_after, hstart]
      exact Bindings.nodup_names_bindAll hpairs hnone List.nodup_nil

end Rolling

end Tabletop
