/-
  Selections: whom they take, and what comes of several.

  1. **One selection** — of the active dice as many as asked for are counted off in order, or all of
     them if they are fewer; those are kept and the others dropped, or the other way round.  Nothing
     else about any die changes.
  2. **Two of one kind** — each is a cut of one order, so two that keep are the shorter one, and two
     that drop are as one that drops as many as both.
  3. **The two ends** — to keep some dice from one end and to drop the others from the other end
     leaves the same faces.  The dice are the same only if no face is on both sides of the cut:
     among equal faces each counts off those in front first, the one to keep them and the other to
     drop them.
-/
import Mathlib.Data.List.Perm.Subperm
import Tabletop.Proofs.Rolling.Ranking

namespace Tabletop

/-! ## One selection -/

/-- Whether a die is dropped, if it is among those counted off or if it is not. -/
def SelectionAction.drops : SelectionAction → Bool → Bool
  | keep, counted => !counted
  | drop, counted => counted

/-- What becomes of dice in a selection of so many.

    `inactive`: a die that was out of the count stays as it was.  `counted`: of the active dice,
    which stand in one order, so many are counted off from its front; those are kept or dropped, and
    being dropped is all that can change.  `kept`, `dropped`: how many that are. -/
structure Selects (action : SelectionAction) (extreme : Extreme) (count : Nat)
    (before after : List Die) : Prop where
  length : after.length = before.length
  inactive : ∀ (place : Nat) (die : Die), before[place]? = some die → die.active = false →
    after[place]? = some die
  counted : ∃ order : List (Die × Nat), order.Perm (activeEntries before) ∧
    order.Pairwise extreme.CountsBefore ∧
      ∀ place die, (die, place) ∈ order → after[place]? = some { die with
        dropped := action.drops (decide ((die, place) ∈ order.take (min count order.length))) }
  kept : action = .keep → after.countP (·.active) = min count (before.countP (·.active))
  dropped : action = .drop → after.countP (·.dropped) =
    before.countP (·.dropped) + min count (before.countP (·.active))

namespace SelectionAction

variable (action : SelectionAction) (extreme : Extreme) (count : Nat) (dice : List Die)

/-- How many dice a selection leaves in the count. -/
theorem countP_active_apply : (action.apply extreme count dice).countP (·.active) =
    match action with
    | keep => min count (dice.countP (·.active))
    | drop => dice.countP (·.active) - count := by
  rw [← extreme.length_order, ← extreme.length_order]
  cases action with
  | keep => rw [order_keep, List.length_take]
  | drop => rw [order_drop, List.length_drop]

end SelectionAction

/-- A die is dropped or active, or it was rerolled and neither. -/
theorem countP_dropped_or_active (dice : List Die) :
    dice.countP (fun die => die.dropped || die.active) =
      dice.countP (·.dropped) + dice.countP (·.active) := by
  induction dice with
  | nil => rfl
  | cons die rest ih =>
    simp only [List.countP_cons, ih]
    cases hdropped : die.dropped <;> cases hrerolled : die.rerolled <;>
      simp [Die.active, hdropped, hrerolled] <;> omega

/-- A die goes out of the count when it is dropped, and not otherwise. -/
theorem countP_dropped_apply (action : SelectionAction) (extreme : Extreme) (count : Nat)
    (dice : List Die) :
    (action.apply extreme count dice).countP (·.dropped) +
        (action.apply extreme count dice).countP (·.active) =
      dice.countP (·.dropped) + dice.countP (·.active) := by
  rw [← countP_dropped_or_active, ← countP_dropped_or_active]
  calc
    (action.apply extreme count dice).countP (fun die => die.dropped || die.active) =
        dice.zipIdx.countP fun entry => entry.1.dropped || entry.1.active := by
      rw [SelectionAction.apply, dropAt, List.countP_map]
      refine List.countP_congr fun entry hentry => ?_
      have hdie : dice[entry.2]? = some entry.1 := List.mem_zipIdx_iff_getElem?.mp hentry
      by_cases hplace : entry.2 ∈ action.excluded extreme count dice
      · have hactive := SelectionAction.active_of_mem_excluded hdie hplace
        simp [hplace, hactive]
      · simp [hplace]
    _ = (dice.zipIdx.map (·.1)).countP (fun die => die.dropped || die.active) :=
      (countP_map_of_eq (p := fun die : Die => die.dropped || die.active) (fun _ => rfl) _).symm
    _ = dice.countP (fun die => die.dropped || die.active) := by rw [List.zipIdx_map_fst]

/-- An active die is found by its place among those that stand in order. -/
theorem Extreme.mem_order {extreme : Extreme} {dice : List Die} {die : Die} {place : Nat} :
    (die, place) ∈ extreme.order dice ↔ dice[place]? = some die ∧ die.active = true := by
  rw [(extreme.order_perm dice).mem_iff, mem_activeEntries]

/-- Of an active die its place tells whether it is dropped. -/
theorem SelectionAction.mem_excluded (action : SelectionAction) {extreme : Extreme} (count : Nat)
    {dice : List Die} {die : Die} {place : Nat} (h : (die, place) ∈ extreme.order dice) :
    place ∈ action.excluded extreme count dice ↔
      action.drops (decide ((die, place) ∈ (extreme.order dice).take count)) = true := by
  have hnodup := extreme.order_nodup dice
  -- No other die has this place.
  have hplace : ∀ part ⊆ extreme.order dice, place ∈ part.map (·.2) ↔ (die, place) ∈ part := by
    intro part hpart
    refine ⟨fun hmem => ?_, fun hmem => List.mem_map.mpr ⟨_, hmem, rfl⟩⟩
    obtain ⟨⟨other, _⟩, hother, rfl⟩ := List.mem_map.mp hmem
    have hsame := (Extreme.mem_order.mp (hpart hother)).1.symm.trans (Extreme.mem_order.mp h).1
    rwa [Option.some.inj hsame] at hother
  cases action with
  | keep =>
    rw [excluded, extreme.ranking_eq, ← List.map_drop, hplace _ (List.drop_subset _ _), drops,
      Bool.not_eq_true', decide_eq_false_iff_not]
    constructor
    · exact fun hback hfront => List.disjoint_take_drop hnodup (Nat.le_refl count) hfront hback
    · intro hfront
      rw [← List.take_append_drop count (extreme.order dice), List.mem_append] at h
      exact h.resolve_left hfront
  | drop =>
    rw [excluded, extreme.ranking_eq, ← List.map_take, hplace _ (List.take_subset _ _), drops,
      decide_eq_true_eq]

/-- What a selection does is what is asked of it. -/
theorem SelectionAction.selects_apply (action : SelectionAction) (extreme : Extreme) (count : Nat)
    (dice : List Die) : Selects action extreme count dice (action.apply extreme count dice) := by
  have hactive := action.countP_active_apply extreme count dice
  have hdropped := countP_dropped_apply action extreme count dice
  refine ⟨length_dropAt _ dice, ?_, ⟨extreme.order dice, extreme.order_perm dice,
    extreme.order_ordered dice, ?_⟩, ?_, ?_⟩
  · intro place die hdie hinactive
    have hstays : place ∉ action.excluded extreme count dice := fun hplace =>
      Bool.false_ne_true (hinactive.symm.trans (active_of_mem_excluded hdie hplace))
    rw [apply, getElem?_dropAt, hdie, Option.map_some, if_neg hstays]
  · intro place die h
    obtain ⟨hdie, hcounts⟩ := Extreme.mem_order.mp h
    have hexcluded := action.mem_excluded count h
    rw [apply, getElem?_dropAt, hdie, Option.map_some, ← List.take_eq_take_min]
    have hfresh : die.dropped = false := (Die.active_iff.mp hcounts).1
    by_cases hplace : place ∈ action.excluded extreme count dice
    · rw [if_pos hplace, hexcluded.mp hplace]
    · rw [if_neg hplace, Bool.eq_false_iff.mpr (fun htaken => hplace (hexcluded.mpr htaken)),
        ← hfresh]
  · rintro rfl
    exact hactive
  · rintro rfl
    simp only at hactive
    omega

/-- What is asked of a selection leaves no choice, whatever faces are equal. -/
theorem Selects.unique {action : SelectionAction} {extreme : Extreme} {count : Nat}
    {before after after' : List Die} (h : Selects action extreme count before after)
    (h' : Selects action extreme count before after') : after = after' := by
  obtain ⟨order, hperm, hordered, hcounted⟩ := h.counted
  obtain ⟨order', hperm', hordered', hcounted'⟩ := h'.counted
  have hsame : order' = order :=
    (Extreme.order_unique hperm' hordered').trans (Extreme.order_unique hperm hordered).symm
  refine List.ext_getElem? fun place => ?_
  cases hdie : before[place]? with
  | none =>
    have hend := List.getElem?_eq_none_iff.mp hdie
    rw [List.getElem?_eq_none (h.length ▸ hend), List.getElem?_eq_none (h'.length ▸ hend)]
  | some die =>
    cases hactive : die.active with
    | false => rw [h.inactive place die hdie hactive, h'.inactive place die hdie hactive]
    | true =>
      have hmem : (die, place) ∈ order := hperm.mem_iff.mpr (mem_activeEntries.mpr ⟨hdie, hactive⟩)
      rw [hcounted place die hmem, hcounted' place die (hsame ▸ hmem), hsame]

namespace Rolling

variable {setup : Setup}

/-- An operand that has a value is looked up, and nothing else happens. -/
theorem resolve_of_value? {operand : Operand} {n : Int}
    (h : operand.value? setup.table = some n) (ledger : Ledger) :
    ∃ used, resolve setup operand ledger = .ok n { ledger with used } := by
  cases operand with
  | number m =>
    cases h
    exact ⟨ledger.used, rfl⟩
  | named name =>
    have hget : setup.table.get? name = some n := h
    refine ⟨ledger.used.insert name n, ?_⟩
    rw [resolve, hget]

/-- **Selection.**  A selection whose count is not negative leaves the dice selected, and the
    selections behind it go on from those; one whose count is negative is refused, whatever the dice
    are and whatever follows.  No die is drawn and no event noted. -/
theorem applySelections_selects {selection : Selection} {count : Int}
    (h : selection.count.value? setup.table = some count) (rest : List Selection)
    (dice : List Die) (ledger : Ledger) :
    ∃ used,
      (0 ≤ count → ∃ after,
        Selects selection.action selection.extreme count.toNat dice after ∧
          applySelections setup (selection :: rest) dice ledger =
            applySelections setup rest after { ledger with used }) ∧
      (count < 0 → applySelections setup (selection :: rest) dice ledger =
        .error (.expr (.hazard (.negativeSelection count))) { ledger with used }) := by
  obtain ⟨used, hresolve⟩ := resolve_of_value? h ledger
  refine ⟨used, fun hcount => ?_, fun hnegative => ?_⟩
  · refine ⟨_, selection.action.selects_apply selection.extreme count.toNat dice, ?_⟩
    rw [applySelections_cons, Run.bind_of_ok hresolve, if_neg (Int.not_lt.mpr hcount)]
  · rw [applySelections_cons, Run.bind_of_ok hresolve, if_pos hnegative]
    rfl

/-- Of two threes, a rerolled one and a five, the lowest two are the threes; and it is refused to
    drop fewer dice than none. -/
theorem applySelections_selects_drop :
    ∃ setup dice after, setup = Setup.mk (Source.always 1) {} [("K", 2), ("N", -1)] 9 ∧
      dice = [⟨.faces 6, 3, false, false, false, false, none⟩,
        ⟨.faces 6, 1, false, false, true, false, none⟩,
        ⟨.faces 6, 5, true, false, false, false, none⟩,
        ⟨.faces 6, 3, false, false, false, false, none⟩] ∧
      Selects .drop .low 2 dice after ∧ after.map (·.dropped) = [true, false, false, true] ∧
      applySelections setup [⟨.drop, .low, .named "K"⟩] dice {} =
        .ok after { used := [("K", 2)] } ∧
      applySelections setup [⟨.drop, .low, .named "N"⟩] dice {} =
        .error (.expr (.hazard (.negativeSelection (-1)))) { used := [("N", -1)] } := by
  refine ⟨_, _, _, rfl, rfl, ?_, ?_, rfl, ?_⟩
  · obtain ⟨used, hselects, -⟩ := @applySelections_selects
      ⟨Source.always 1, {}, [("K", 2), ("N", -1)], 9⟩ ⟨.drop, .low, .named "K"⟩ 2 rfl []
      [⟨.faces 6, 3, false, false, false, false, none⟩,
        ⟨.faces 6, 1, false, false, true, false, none⟩,
        ⟨.faces 6, 5, true, false, false, false, none⟩,
        ⟨.faces 6, 3, false, false, false, false, none⟩] {}
    obtain ⟨after, hresult, hrun⟩ := hselects (by decide)
    cases hrun
    exact hresult
  · rfl
  · rfl

/-! ## Two of one kind -/

/-- From whatever ledger they start, the selections leave those dice; variables may be looked up,
    and nothing else happens. -/
def SelectsTo (setup : Setup) (selections : List Selection) (dice after : List Die) : Prop :=
  ∀ ledger : Ledger, ∃ used,
    applySelections setup selections dice ledger = .ok after { ledger with used }

namespace SelectsTo

theorem nil (dice : List Die) : SelectsTo setup [] dice dice := fun ledger => ⟨ledger.used, rfl⟩

theorem cons {action : SelectionAction} {extreme : Extreme} {operand : Operand} {count : Nat}
    (hcount : operand.value? setup.table = some (count : Int)) {rest : List Selection}
    {dice after : List Die} (h : SelectsTo setup rest (action.apply extreme count dice) after) :
    SelectsTo setup (⟨action, extreme, operand⟩ :: rest) dice after := by
  intro ledger
  obtain ⟨used, hresolve⟩ := resolve_of_value? hcount ledger
  obtain ⟨used', hrest⟩ := h { ledger with used }
  refine ⟨used', ?_⟩
  rw [applySelections_cons, Run.bind_of_ok hresolve, if_neg (Int.not_lt.mpr (Int.natCast_nonneg _))]
  exact hrest

theorem single {action : SelectionAction} {extreme : Extreme} {operand : Operand} {count : Nat}
    (hcount : operand.value? setup.table = some (count : Int)) (dice : List Die) :
    SelectsTo setup [⟨action, extreme, operand⟩] dice (action.apply extreme count dice) :=
  .cons hcount (.nil _)

end SelectsTo

/-- Two that keep dice from one end keep as many as the smaller count says. -/
theorem keep_keep (extreme : Extreme) (a b : Nat) (dice : List Die) :
    SelectionAction.keep.apply extreme b (SelectionAction.keep.apply extreme a dice) =
      SelectionAction.keep.apply extreme (min a b) dice := by
  have hranking : extreme.ranking (SelectionAction.keep.apply extreme a dice) =
      (extreme.ranking dice).take a := by
    rw [extreme.ranking_eq, SelectionAction.order_keep, List.map_take, extreme.ranking_eq]
  have hplaces : ∀ place, place ∈ (extreme.ranking dice).drop a ++
      ((extreme.ranking dice).take a).drop b ↔ place ∈ (extreme.ranking dice).drop (min a b) := by
    intro place
    rcases Nat.le_total a b with hle | hle
    · rw [List.drop_take, Nat.sub_eq_zero_of_le hle, List.take_zero, List.append_nil,
        Nat.min_eq_left hle]
    · rw [Nat.min_eq_right hle, List.drop_take, List.mem_append, or_comm, ← List.mem_append]
      have hsplit : (extreme.ranking dice).drop a =
          ((extreme.ranking dice).drop b).drop (a - b) := by
        rw [List.drop_drop, Nat.add_sub_cancel' hle]
      rw [hsplit, List.take_append_drop]
  calc
    SelectionAction.keep.apply extreme b (SelectionAction.keep.apply extreme a dice) =
        dropAt (((extreme.ranking dice).take a).drop b)
          (dropAt ((extreme.ranking dice).drop a) dice) := by
      rw [← hranking]
      rfl
    _ = dropAt ((extreme.ranking dice).drop (min a b)) dice := by
      rw [dropAt_dropAt, dropAt_congr hplaces]

/-- Two that drop dice from one end drop as many as both counts say. -/
theorem drop_drop (extreme : Extreme) (a b : Nat) (dice : List Die) :
    SelectionAction.drop.apply extreme b (SelectionAction.drop.apply extreme a dice) =
      SelectionAction.drop.apply extreme (a + b) dice := by
  have hranking : extreme.ranking (SelectionAction.drop.apply extreme a dice) =
      (extreme.ranking dice).drop a := by
    rw [extreme.ranking_eq, SelectionAction.order_drop, List.map_drop, extreme.ranking_eq]
  calc
    SelectionAction.drop.apply extreme b (SelectionAction.drop.apply extreme a dice) =
        dropAt (((extreme.ranking dice).drop a).take b)
          (dropAt ((extreme.ranking dice).take a) dice) := by
      rw [← hranking]
      rfl
    _ = dropAt ((extreme.ranking dice).take (a + b)) dice := by rw [dropAt_dropAt, List.take_add]

/-- **Selections of one kind.**  To keep dice from one end and then again leaves them as to keep the
    smaller number at once, and to drop some and then more leaves them as to drop so many together;
    whatever faces are equal, and also where more are asked for than there are. -/
theorem selections_compose {x y least both : Operand} {a b : Nat}
    (hx : x.value? setup.table = some (a : Int)) (hy : y.value? setup.table = some (b : Int))
    (hleast : least.value? setup.table = some (min a b : Nat))
    (hboth : both.value? setup.table = some (a + b : Nat)) (extreme : Extreme)
    (dice : List Die) :
    (∃ after, SelectsTo setup [⟨.keep, extreme, x⟩, ⟨.keep, extreme, y⟩] dice after ∧
        SelectsTo setup [⟨.keep, extreme, least⟩] dice after) ∧
      ∃ after, SelectsTo setup [⟨.drop, extreme, x⟩, ⟨.drop, extreme, y⟩] dice after ∧
        SelectsTo setup [⟨.drop, extreme, both⟩] dice after := by
  refine ⟨⟨SelectionAction.keep.apply extreme (min a b) dice, .cons hx ?_, .single hleast dice⟩,
    SelectionAction.drop.apply extreme (a + b) dice, .cons hx ?_, .single hboth dice⟩
  · rw [← keep_keep]
    exact .single hy _
  · rw [← drop_drop]
    exact .single hy _

/-- A three, a two and a three again, and the counts one and two: the first three is kept in either
    way, and no die is left in either way. -/
theorem selections_compose_ties :
    ∃ setup dice kept left, setup = Setup.mk (Source.always 1) {} [("K", 2)] 9 ∧
      dice = [⟨.faces 6, 3, false, false, false, false, none⟩,
        ⟨.faces 6, 2, false, false, false, false, none⟩,
        ⟨.faces 6, 3, false, false, false, false, none⟩] ∧
      kept.map (·.dropped) = [false, true, true] ∧
      left.map (·.dropped) = [true, true, true] ∧
      SelectsTo setup [⟨.keep, .high, .number 1⟩, ⟨.keep, .high, .named "K"⟩] dice kept ∧
      SelectsTo setup [⟨.keep, .high, .number 1⟩] dice kept ∧
      SelectsTo setup [⟨.drop, .high, .number 1⟩, ⟨.drop, .high, .named "K"⟩] dice left ∧
      SelectsTo setup [⟨.drop, .high, .number 3⟩] dice left := by
  generalize hsetup : Setup.mk (Source.always 1) {} [("K", 2)] 9 = setup
  generalize hdice : [Die.mk (.faces 6) 3 false false false false none,
    ⟨.faces 6, 2, false, false, false, false, none⟩,
    ⟨.faces 6, 3, false, false, false, false, none⟩] = dice
  obtain ⟨⟨kept, htwice, honce⟩, left, htwice', honce'⟩ :=
    @selections_compose setup (.number 1) (.named "K") (.number 1) (.number 3) 1 2 rfl
      (by subst hsetup; rfl) rfl rfl .high dice
  refine ⟨setup, dice, kept, left, rfl, rfl, ?_, ?_, htwice, honce, htwice', honce'⟩
  · subst hdice
    obtain ⟨_, hrun⟩ := honce {}
    cases hrun
    rfl
  · subst hdice
    obtain ⟨_, hrun⟩ := honce' {}
    cases hrun
    rfl

end Rolling

/-! ## The two ends -/

/-- The other end of the order by face. -/
def Extreme.opposite : Extreme → Extreme
  | high => low
  | low => high

/-- The faces of dice with their places. -/
def facesAt (entries : List (Die × Nat)) : List Int := entries.map (·.1.face)

/-- No die that went out of the count shows the face of one that still counts. -/
def CutsNoTie (before after : List Die) : Prop :=
  ∀ kept ∈ activeEntries after, ∀ gone ∈ activeEntries before, gone ∉ activeEntries after →
    kept.1.face ≠ gone.1.face

namespace Extreme

variable {extreme : Extreme} {dice : List Die}

theorem nearer_opposite {a b : Int} : extreme.opposite.Nearer a b ↔ extreme.Nearer b a := by
  cases extreme <;> exact Iff.rfl

theorem eq_of_not_nearer {a b : Int} (h : ¬ extreme.Nearer a b) (h' : ¬ extreme.Nearer b a) :
    a = b := by
  cases extreme <;> simp only [Nearer] at * <;> omega

theorem CountsBefore.not_nearer {x y : Die × Nat} (h : extreme.CountsBefore x y) :
    ¬ extreme.Nearer y.1.face x.1.face := by
  cases extreme <;> simp only [CountsBefore, Nearer] at * <;> omega

/-- Of dice of equal face the one in front is counted off first. -/
theorem CountsBefore.place {x y : Die × Nat} (h : extreme.CountsBefore x y)
    (hequal : x.1.face = y.1.face) : x.2 < y.2 := by
  cases extreme <;> simp only [CountsBefore, Nearer] at h <;> omega

/-- Dice that come the same way round from both ends show the same face. -/
theorem face_eq_of_countsBefore {x y : Die × Nat} (h : extreme.CountsBefore x y)
    (h' : extreme.opposite.CountsBefore x y) : x.1.face = y.1.face :=
  eq_of_not_nearer (fun hxy => h'.not_nearer (nearer_opposite.mpr hxy)) h.not_nearer

/-- What is in front of a cut is counted off before what is behind it. -/
theorem countsBefore_of_cut {count : Nat} {x y : Die × Nat}
    (hx : x ∈ (extreme.order dice).take count) (hy : y ∈ (extreme.order dice).drop count) :
    extreme.CountsBefore x y := by
  have hordered := extreme.order_ordered dice
  rw [← List.take_append_drop count (extreme.order dice), List.pairwise_append] at hordered
  exact hordered.2.2 x hx y hy

/-- Each active die is on one side of a cut. -/
theorem mem_take_or_drop (count : Nat) {entry : Die × Nat} (h : entry ∈ activeEntries dice) :
    entry ∈ (extreme.order dice).take count ∨ entry ∈ (extreme.order dice).drop count := by
  rwa [← List.mem_append, List.take_append_drop, (extreme.order_perm dice).mem_iff]

/-- From the other end the faces come in the opposite order. -/
theorem faces_opposite (extreme : Extreme) (dice : List Die) :
    facesAt (extreme.opposite.order dice) = (facesAt (extreme.order dice)).reverse := by
  have hperm : (facesAt (extreme.opposite.order dice)).Perm
      (facesAt (extreme.order dice)).reverse :=
    (((extreme.opposite.order_perm dice).trans (extreme.order_perm dice).symm).map _).trans
      (List.reverse_perm _).symm
  have hopposite : (facesAt (extreme.opposite.order dice)).Pairwise
      (fun a b => ¬ extreme.Nearer a b) :=
    List.pairwise_map.mpr ((extreme.opposite.order_ordered dice).imp fun hbefore hnearer =>
      hbefore.not_nearer (nearer_opposite.mpr hnearer))
  have hreverse : (facesAt (extreme.order dice)).reverse.Pairwise
      (fun a b => ¬ extreme.Nearer a b) :=
    List.pairwise_reverse.mpr (List.pairwise_map.mpr
      ((extreme.order_ordered dice).imp CountsBefore.not_nearer))
  exact hperm.eq_of_pairwise (fun _ _ _ _ hab hba => eq_of_not_nearer hab hba) hopposite hreverse

end Extreme

namespace SelectionAction

variable {extreme : Extreme} {count : Nat} {dice : List Die}

theorem mem_keep {entry : Die × Nat} :
    entry ∈ activeEntries (keep.apply extreme count dice) ↔
      entry ∈ (extreme.order dice).take count := by
  rw [← order_keep, (extreme.order_perm _).mem_iff]

theorem mem_drop {entry : Die × Nat} :
    entry ∈ activeEntries (drop.apply extreme count dice) ↔
      entry ∈ (extreme.order dice).drop count := by
  rw [← order_drop, (extreme.order_perm _).mem_iff]

/-- Cuts that belong together leave the same faces. -/
theorem faces_of_cuts (extreme : Extreme) (count : Nat) (dice : List Die) :
    (facesAt (activeEntries (keep.apply extreme count dice))).Perm
      (facesAt (activeEntries
        (drop.apply extreme.opposite (dice.countP (·.active) - count) dice))) := by
  have hlength : (facesAt (extreme.order dice)).length = dice.countP (·.active) := by
    rw [facesAt, List.length_map, extreme.length_order]
  have hsame : facesAt ((extreme.opposite.order dice).drop (dice.countP (·.active) - count)) =
      (facesAt ((extreme.order dice).take count)).reverse := by
    rw [facesAt, List.map_drop, ← facesAt, extreme.faces_opposite, List.drop_reverse, hlength,
      Nat.sub_sub_eq_min, Nat.min_comm, ← hlength, ← List.take_eq_take_min, facesAt, facesAt,
      List.map_take]
  have hkept : (facesAt ((extreme.order dice).take count)).Perm
      (facesAt (activeEntries (keep.apply extreme count dice))) := by
    rw [← order_keep]
    exact (extreme.order_perm _).map _
  have hleft := (extreme.opposite.order_perm
    (drop.apply extreme.opposite (dice.countP (·.active) - count) dice)).map (·.1.face)
  rw [order_drop, ← facesAt, hsame] at hleft
  exact hkept.symm.trans ((List.reverse_perm _).symm.trans hleft)

/-- If no tie is cut, the dice behind the one cut are those in front of the other one.  They are
    equally many; so if one were in front only, another one would be behind only, and these two
    would come the same way round from both ends. -/
theorem cut_perm (h : CutsNoTie dice (keep.apply extreme count dice)) :
    ((extreme.order dice).drop count).Perm
      ((extreme.opposite.order dice).take (dice.countP (·.active) - count)) := by
  have hlength : ((extreme.order dice).drop count).length =
      ((extreme.opposite.order dice).take (dice.countP (·.active) - count)).length := by
    rw [List.length_drop, List.length_take, Extreme.length_order, Extreme.length_order,
      Nat.min_eq_left (Nat.sub_le _ _)]
  by_cases hsub : (extreme.opposite.order dice).take (dice.countP (·.active) - count) ⊆
      (extreme.order dice).drop count
  · have hnodup := (List.take_sublist (dice.countP (·.active) - count) _).nodup
      (extreme.opposite.order_nodup dice)
    exact ((hnodup.subperm hsub).perm_of_length_le (Nat.le_of_eq hlength)).symm
  · obtain ⟨y, hfront, hstays⟩ : ∃ y, y ∈ (extreme.opposite.order dice).take
        (dice.countP (·.active) - count) ∧ y ∉ (extreme.order dice).drop count := by
      simpa only [List.subset_def, not_forall, exists_prop] using hsub
    have hactive : ∀ extreme : Extreme, ∀ x ∈ extreme.order dice, x ∈ activeEntries dice :=
      fun extreme x => (extreme.order_perm dice).mem_iff.mp
    have hy : y ∈ (extreme.order dice).take count :=
      (Extreme.mem_take_or_drop count
        (hactive _ y (List.mem_of_mem_take hfront))).resolve_right hstays
    have hgone : (extreme.order dice).drop count ⊆
        (extreme.opposite.order dice).take (dice.countP (·.active) - count) := by
      intro x hx
      have hx' := hactive _ x (List.mem_of_mem_drop hx)
      refine (Extreme.mem_take_or_drop _ hx').resolve_right fun hback => ?_
      -- Of the two, one is kept and one is not, and they show the same face: a tie that is cut.
      refine h y (mem_keep.mpr hy) x hx' (fun hkept => ?_) ?_
      · exact List.disjoint_take_drop (extreme.order_nodup dice) (Nat.le_refl count)
          (mem_keep.mp hkept) hx
      · exact Extreme.face_eq_of_countsBefore (Extreme.countsBefore_of_cut hy hx)
          (Extreme.countsBefore_of_cut hfront hback)
    have hnodup := (List.drop_sublist count _).nodup (extreme.order_nodup dice)
    exact (hnodup.subperm hgone).perm_of_length_le (Nat.le_of_eq hlength.symm)

/-- Cuts that belong together leave the same dice just if no tie is cut. -/
theorem cuts_eq_iff :
    keep.apply extreme count dice =
        drop.apply extreme.opposite (dice.countP (·.active) - count) dice ↔
      CutsNoTie dice (keep.apply extreme count dice) := by
  constructor
  · -- Of two dice of one face the one that stays is counted off first where dice are kept, and the
    -- one that goes where they are dropped; but from both ends it is the one in front.
    intro hsame x hx y hy hgone hface
    have hfirst : extreme.CountsBefore x y :=
      Extreme.countsBefore_of_cut (mem_keep.mp hx)
        ((Extreme.mem_take_or_drop count hy).resolve_left (mt mem_keep.mpr hgone))
    rw [hsame] at hx hgone
    have hsecond : extreme.opposite.CountsBefore y x :=
      Extreme.countsBefore_of_cut
        ((Extreme.mem_take_or_drop _ hy).resolve_right (mt mem_drop.mpr hgone))
        (mem_drop.mp hx)
    exact Nat.lt_asymm (hfirst.place hface) (hsecond.place hface.symm)
  · intro h
    have hplaces := (cut_perm h).map (·.2)
    rw [List.map_drop, List.map_take, ← Extreme.ranking_eq, ← Extreme.ranking_eq] at hplaces
    exact dropAt_congr (fun place => hplaces.mem_iff) dice

end SelectionAction

/-- **Selections from the two ends.**  To keep some of the active dice from one end, or to drop the
    others from the other end, leaves the same faces.  It leaves the same dice just if no die that
    goes shows the face of one that stays: of such dice the one in front stays where dice are kept,
    and goes where dice are dropped. -/
theorem Rolling.keep_drop_ends {setup : Setup} {dice : List Die} {x y : Operand} {count : Nat}
    (hx : x.value? setup.table = some (count : Int))
    (hy : y.value? setup.table = some (dice.countP (·.active) - count : Nat))
    (extreme : Extreme) :
    ∃ kept left, SelectsTo setup [⟨.keep, extreme, x⟩] dice kept ∧
      SelectsTo setup [⟨.drop, extreme.opposite, y⟩] dice left ∧
        (facesAt (activeEntries kept)).Perm (facesAt (activeEntries left)) ∧
          (kept = left ↔ CutsNoTie dice kept) :=
  ⟨_, _, .single hx dice, .single hy dice, SelectionAction.faces_of_cuts extreme count dice,
    SelectionAction.cuts_eq_iff⟩

/-- Of two threes the first is left where one is kept, and the second where one is dropped. -/
theorem Rolling.keep_drop_ends_tie :
    ∃ setup dice kept left, setup = Setup.mk (Source.always 1) {} [] 9 ∧
      dice = [⟨.faces 6, 3, false, false, false, false, none⟩,
        ⟨.faces 6, 3, false, false, false, false, none⟩] ∧
      SelectsTo setup [⟨.keep, .high, .number 1⟩] dice kept ∧
      SelectsTo setup [⟨.drop, .low, .number 1⟩] dice left ∧
      kept.map (·.dropped) = [false, true] ∧ left.map (·.dropped) = [true, false] ∧
      ¬ CutsNoTie dice kept := by
  generalize hsetup : Setup.mk (Source.always 1) {} [] 9 = setup
  generalize hdice : [Die.mk (.faces 6) 3 false false false false none,
    ⟨.faces 6, 3, false, false, false, false, none⟩] = dice
  obtain ⟨kept, left, hkept, hleft, -, hiff⟩ :=
    @keep_drop_ends setup dice (.number 1) (.number 1) 1 rfl (by subst hdice; rfl) .high
  have hflags : kept.map (·.dropped) = [false, true] ∧ left.map (·.dropped) = [true, false] := by
    subst hdice
    obtain ⟨_, hrun⟩ := hkept {}
    obtain ⟨_, hrun'⟩ := hleft {}
    cases hrun
    cases hrun'
    exact ⟨rfl, rfl⟩
  refine ⟨setup, dice, kept, left, rfl, rfl, hkept, hleft, hflags.1, hflags.2, ?_⟩
  rw [← hiff]
  rintro rfl
  exact absurd (hflags.1.symm.trans hflags.2) (by decide)

end Tabletop
