/-
  The order in which dice are counted off, and what a selection makes of it.

  1. **One order** — a die is counted off before another if its face is nearer to the end that the
     counting starts at, or if it shows the same face and lies in front of it.  Of two dice one
     always comes first, so there is only one list of the active dice in this order
     (`order_unique`).
  2. **What is left of it** — a selection turns no face and moves no die.  So the dice that it
     leaves follow each other as before: where dice are kept they are the front of the old order,
     where dice are dropped its back.  Several selections are several cuts of one list.
-/
import Tabletop.Proofs.Rolling.Selection

namespace Tabletop

/-! ## One order -/

/-- The active dice with their places. -/
def activeEntries (dice : List Die) : List (Die × Nat) := dice.zipIdx.filter (·.1.active)

/-- The first face is nearer to that end than the second. -/
def Extreme.Nearer (extreme : Extreme) (a b : Int) : Prop :=
  match extreme with
  | .high => b < a
  | .low => a < b

/-- The first die is counted off before the second one. -/
def Extreme.CountsBefore (extreme : Extreme) (x y : Die × Nat) : Prop :=
  extreme.Nearer x.1.face y.1.face ∨ x.1.face = y.1.face ∧ x.2 < y.2

/-- The active dice with their places, in the order in which they are counted off. -/
def Extreme.order (extreme : Extreme) (dice : List Die) : List (Die × Nat) :=
  extreme.sort (activeEntries dice)

/-- The active entries are the dice that count, each with its place. -/
theorem mem_activeEntries {dice : List Die} {die : Die} {place : Nat} :
    (die, place) ∈ activeEntries dice ↔ dice[place]? = some die ∧ die.active = true := by
  rw [activeEntries, List.mem_filter, List.mem_zipIdx_iff_getElem?]

theorem length_activeEntries (dice : List Die) :
    (activeEntries dice).length = dice.countP (·.active) := by
  calc
    (activeEntries dice).length = dice.zipIdx.countP (·.1.active) :=
      List.countP_eq_length_filter.symm
    _ = (dice.zipIdx.map (·.1)).countP (·.active) :=
      (countP_map_of_eq (fun _ => rfl) dice.zipIdx).symm
    _ = dice.countP (·.active) := by rw [List.zipIdx_map_fst]

/-- The places of dice that lie in a row ascend. -/
theorem activeEntries_ascend (dice : List Die) :
    (activeEntries dice).Pairwise (fun x y => x.2 < y.2) := by
  have hplaces : (dice.zipIdx.map (·.2)).Pairwise (· < ·) := by
    rw [List.zipIdx_map_snd]
    exact List.pairwise_lt_range'
  exact (List.pairwise_map.mp hplaces).filter _

namespace Extreme

variable {extreme : Extreme}

/-- The order of dice is transitive. -/
theorem CountsBefore.trans {x y z : Die × Nat} (h : extreme.CountsBefore x y)
    (h' : extreme.CountsBefore y z) : extreme.CountsBefore x z := by
  cases extreme <;> simp only [CountsBefore, Nearer] at * <;> omega

/-- No two dice count before each other. -/
theorem CountsBefore.asymm {x y : Die × Nat} (h : extreme.CountsBefore x y) :
    ¬ extreme.CountsBefore y x := by
  cases extreme <;> simp only [CountsBefore, Nearer] at * <;> omega

/-- A die that may stand before another, and lies in front of it, is counted off first; one that may
    not is counted off after it. -/
theorem countsBefore_of_precedes (extreme : Extreme) {x y : Die × Nat} (hplace : x.2 < y.2) :
    (extreme.precedes x.1.face y.1.face = true → extreme.CountsBefore x y) ∧
      (extreme.precedes x.1.face y.1.face = false → extreme.CountsBefore y x) := by
  cases extreme <;> simp only [precedes, CountsBefore, Nearer, decide_eq_true_eq,
    decide_eq_false_iff_not] <;> omega

/-- A die that lies in front of all others is put in its place among them. -/
theorem insert_ordered {entry : Die × Nat} {entries : List (Die × Nat)}
    (hplace : ∀ other ∈ entries, entry.2 < other.2)
    (h : entries.Pairwise extreme.CountsBefore) :
    (extreme.insert entry entries).Pairwise extreme.CountsBefore := by
  induction entries with
  | nil => exact List.pairwise_singleton _ _
  | cons other rest ih =>
    rw [List.forall_mem_cons] at hplace
    obtain ⟨hfirst, hafter⟩ := countsBefore_of_precedes extreme hplace.1
    obtain ⟨hother, hrest⟩ := List.pairwise_cons.mp h
    rw [insert]
    split
    · next hprecedes =>
      refine h.cons (List.forall_mem_cons.mpr ⟨hfirst hprecedes, fun x hx => ?_⟩)
      exact (hfirst hprecedes).trans (hother x hx)
    · next hprecedes =>
      refine (ih hplace.2 hrest).cons fun x hx => ?_
      rcases List.mem_cons.mp ((extreme.insert_perm entry rest).mem_iff.mp hx) with rfl | hx
      · exact hafter (Bool.eq_false_iff.mpr hprecedes)
      · exact hother x hx

/-- Dice that lie in a row are brought into the order: induction on them, where each one that comes
    in lies in front of those that are in order already. -/
theorem sort_ordered {entries : List (Die × Nat)} (h : entries.Pairwise (fun x y => x.2 < y.2)) :
    (extreme.sort entries).Pairwise extreme.CountsBefore := by
  induction entries with
  | nil => exact .nil
  | cons entry rest ih =>
    obtain ⟨hplace, hrest⟩ := List.pairwise_cons.mp h
    exact insert_ordered (fun other hother =>
      hplace other ((extreme.sort_perm rest).mem_iff.mp hother)) (ih hrest)

theorem order_perm (extreme : Extreme) (dice : List Die) :
    (extreme.order dice).Perm (activeEntries dice) :=
  extreme.sort_perm _

/-- In the order of dice every one counts before those behind it. -/
theorem order_ordered (extreme : Extreme) (dice : List Die) :
    (extreme.order dice).Pairwise extreme.CountsBefore :=
  sort_ordered (activeEntries_ascend dice)

/-- Only one list of the same dice is in order. -/
theorem order_unique {dice : List Die} {entries : List (Die × Nat)}
    (hperm : entries.Perm (activeEntries dice)) (h : entries.Pairwise extreme.CountsBefore) :
    entries = extreme.order dice :=
  (hperm.trans (order_perm extreme dice).symm).eq_of_pairwise
    (fun _ _ _ _ hxy hyx => absurd hyx hxy.asymm) h (order_ordered extreme dice)

theorem ranking_eq (extreme : Extreme) (dice : List Die) :
    extreme.ranking dice = (extreme.order dice).map (·.2) := rfl

theorem length_order (extreme : Extreme) (dice : List Die) :
    (extreme.order dice).length = dice.countP (·.active) := by
  rw [(order_perm extreme dice).length_eq, length_activeEntries]

/-- No place is counted off twice. -/
theorem ranking_nodup (extreme : Extreme) (dice : List Die) : (extreme.ranking dice).Nodup := by
  rw [ranking_eq, ((order_perm extreme dice).map _).nodup_iff]
  exact (List.pairwise_map.mpr (activeEntries_ascend dice)).imp Nat.ne_of_lt

theorem order_nodup (extreme : Extreme) (dice : List Die) : (extreme.order dice).Nodup :=
  (List.pairwise_map.mp (ranking_nodup extreme dice)).imp fun hne heq =>
    hne (congrArg (·.2) heq)

end Extreme

/-! ## What is left of it -/

/-- At each place stands the same die, dropped if it was dropped there. -/
theorem getElem?_dropAt (places : List Nat) (dice : List Die) (place : Nat) :
    (dropAt places dice)[place]? =
      dice[place]?.map fun die => if place ∈ places then { die with dropped := true } else die := by
  rw [dropAt, List.getElem?_map, List.getElem?_zipIdx, Option.map_map, Nat.zero_add]
  rfl

/-- Dice are dropped place by place, in whatever order the places are given. -/
theorem dropAt_congr {places places' : List Nat} (h : ∀ place, place ∈ places ↔ place ∈ places')
    (dice : List Die) : dropAt places dice = dropAt places' dice := by
  refine List.ext_getElem? fun place => ?_
  simp only [getElem?_dropAt, h place]

theorem dropAt_dropAt (places places' : List Nat) (dice : List Die) :
    dropAt places' (dropAt places dice) = dropAt (places ++ places') dice := by
  refine List.ext_getElem? fun place => ?_
  rw [getElem?_dropAt, getElem?_dropAt, getElem?_dropAt, Option.map_map]
  congr 1
  funext die
  by_cases hfirst : place ∈ places <;> by_cases hsecond : place ∈ places' <;>
    simp [hfirst, hsecond]

/-- Those that are not dropped are active as before. -/
theorem activeEntries_dropAt (places : List Nat) (dice : List Die) :
    activeEntries (dropAt places dice) =
      (activeEntries dice).filter (fun entry => entry.2 ∉ places) := by
  unfold activeEntries dropAt
  -- The places may be counted from any number on.
  generalize 0 = start
  induction dice generalizing start with
  | nil => rfl
  | cons die rest ih =>
    simp only [List.zipIdx_cons, List.map_cons, List.filter_cons, ih]
    by_cases hplace : start ∈ places
    · have hgone : ({ die with dropped := true } : Die).active = false := by simp [Die.active]
      cases hactive : die.active <;> simp [hplace, hgone]
    · cases hactive : die.active <;> simp [hplace, hactive]

/-- Those that are left are counted off in the order in which they were before. -/
theorem Extreme.order_dropAt (extreme : Extreme) (places : List Nat) (dice : List Die) :
    extreme.order (dropAt places dice) =
      (extreme.order dice).filter (fun entry => entry.2 ∉ places) := by
  refine (Extreme.order_unique ?_ ((extreme.order_ordered dice).filter _)).symm
  rw [activeEntries_dropAt]
  exact (extreme.order_perm dice).filter _

/-- Of two parts of a list with different places each is what the places of the other leave. -/
theorem filter_parts {front back : List (Die × Nat)} (h : ((front ++ back).map (·.2)).Nodup) :
    (front ++ back).filter (fun entry => entry.2 ∉ back.map (·.2)) = front ∧
      (front ++ back).filter (fun entry => entry.2 ∉ front.map (·.2)) = back := by
  rw [List.map_append, List.nodup_append] at h
  obtain ⟨-, -, hapart⟩ := h
  have hfront : ∀ entry ∈ front, entry.2 ∉ back.map (·.2) := fun entry hentry hback =>
    hapart _ (List.mem_map_of_mem hentry) _ hback rfl
  have hback : ∀ entry ∈ back, entry.2 ∉ front.map (·.2) := fun entry hentry hfront =>
    hapart _ hfront _ (List.mem_map_of_mem hentry) rfl
  have hgone : ∀ part : List (Die × Nat),
      part.filter (fun entry => entry.2 ∉ part.map (·.2)) = [] := fun part => by
    rw [List.filter_eq_nil_iff]
    exact fun entry hentry => by simpa using ⟨entry.1, hentry⟩
  constructor
  · rw [List.filter_append, hgone, List.append_nil, List.filter_eq_self]
    exact fun entry hentry => decide_eq_true (hfront entry hentry)
  · rw [List.filter_append, hgone, List.nil_append, List.filter_eq_self]
    exact fun entry hentry => decide_eq_true (hback entry hentry)

/-- The two parts of the order, by the places that are taken out of it. -/
theorem Extreme.order_parts (extreme : Extreme) (dice : List Die) (count : Nat) :
    (extreme.order dice).filter (fun entry => entry.2 ∉ (extreme.ranking dice).drop count) =
        (extreme.order dice).take count ∧
      (extreme.order dice).filter (fun entry => entry.2 ∉ (extreme.ranking dice).take count) =
        (extreme.order dice).drop count := by
  have hnodup := extreme.ranking_nodup dice
  rw [extreme.ranking_eq] at hnodup ⊢
  rw [← List.take_append_drop count (extreme.order dice)] at hnodup
  have hparts := filter_parts hnodup
  rwa [List.take_append_drop, List.map_drop, List.map_take] at hparts

namespace SelectionAction

variable (extreme : Extreme) (count : Nat) (dice : List Die)

/-- What is kept is the front of the order. -/
theorem order_keep :
    extreme.order (keep.apply extreme count dice) = (extreme.order dice).take count := by
  rw [apply, extreme.order_dropAt]
  exact (extreme.order_parts dice count).1

/-- What is not dropped is its back. -/
theorem order_drop :
    extreme.order (drop.apply extreme count dice) = (extreme.order dice).drop count := by
  rw [apply, extreme.order_dropAt]
  exact (extreme.order_parts dice count).2

end SelectionAction

end Tabletop
