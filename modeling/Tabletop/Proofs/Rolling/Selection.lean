/-
  Whom a selection takes out.

  The order that dice are counted off in is a rearrangement of the active ones, so the places that
  it gives are places of active dice.  That is why no die is taken out twice: what was replaced or
  dropped before is not counted off again.
-/
import Tabletop.Proofs.Rolling.Ensures

namespace Tabletop

/-! ## The order of counting off -/

theorem Extreme.insert_perm (extreme : Extreme) (entry : Die × Nat) (entries : List (Die × Nat)) :
    (extreme.insert entry entries).Perm (entry :: entries) := by
  induction entries with
  | nil => exact .refl _
  | cons other rest ih =>
    rw [Extreme.insert]
    split
    · exact .refl _
    · exact (ih.cons other).trans (.swap entry other rest)

/-- Sorting neither loses nor adds an entry. -/
theorem Extreme.sort_perm (extreme : Extreme) (entries : List (Die × Nat)) :
    (extreme.sort entries).Perm entries := by
  induction entries with
  | nil => exact .refl _
  | cons entry rest ih => exact (extreme.insert_perm entry _).trans (ih.cons entry)

/-- The places counted off are those of active dice. -/
theorem Extreme.active_of_mem_ranking {extreme : Extreme} {dice : List Die} {die : Die}
    {place : Nat} (hdie : dice[place]? = some die) (h : place ∈ extreme.ranking dice) :
    die.active = true := by
  obtain ⟨⟨other, at_⟩, hentry, rfl⟩ := List.mem_map.mp h
  have hsorted := (extreme.sort_perm _).mem_iff.mp hentry
  obtain ⟨hplace, hactive⟩ := List.mem_filter.mp hsorted
  rw [List.mem_zipIdx_iff_getElem?] at hplace
  rw [hplace] at hdie
  cases hdie
  exact hactive

/-- A selection takes out active dice. -/
theorem SelectionAction.active_of_mem_excluded {action : SelectionAction} {extreme : Extreme}
    {count : Nat} {dice : List Die} {die : Die} {place : Nat} (hdie : dice[place]? = some die)
    (h : place ∈ action.excluded extreme count dice) : die.active = true := by
  cases action with
  | keep => exact Extreme.active_of_mem_ranking hdie (List.mem_of_mem_drop h)
  | drop => exact Extreme.active_of_mem_ranking hdie (List.mem_of_mem_take h)

/-! ## What a selection leaves -/

/-- A die counts just if it was neither dropped nor rerolled. -/
theorem Die.active_iff {die : Die} :
    die.active = true ↔ die.dropped = false ∧ die.rerolled = false := by
  simp [Die.active]

/-- What marking does not change is counted as before. -/
theorem countP_map_of_eq {α β : Type} {p : β → Bool} {q : α → Bool} {mark : α → β}
    (h : ∀ a, p (mark a) = q a) (as : List α) : (as.map mark).countP p = as.countP q := by
  rw [List.countP_map]
  exact List.countP_congr fun a _ => by rw [Function.comp, h]

/-- What is not about being dropped is counted as before. -/
theorem countP_dropAt {p : Die → Bool} (hp : ∀ die, p { die with dropped := true } = p die)
    (places : List Nat) (dice : List Die) : (dropAt places dice).countP p = dice.countP p := by
  have hmark : ∀ entry : Die × Nat,
      p (if entry.2 ∈ places then { entry.1 with dropped := true } else entry.1) = p entry.1 := by
    intro entry
    split
    · exact hp entry.1
    · rfl
  calc
    (dropAt places dice).countP p = dice.zipIdx.countP fun entry => p entry.1 :=
      countP_map_of_eq hmark dice.zipIdx
    _ = (dice.zipIdx.map (·.1)).countP p := (countP_map_of_eq (fun _ => rfl) dice.zipIdx).symm
    _ = dice.countP p := by rw [List.zipIdx_map_fst]

theorem length_dropAt (places : List Nat) (dice : List Die) :
    (dropAt places dice).length = dice.length := by
  rw [dropAt, List.length_map, List.length_zipIdx]

/-- What holds of dice and goes on to hold of those that are taken out holds after a selection. -/
theorem SelectionAction.forall_mem_apply {p : Die → Prop} {dice : List Die}
    (hdice : ∀ die ∈ dice, p die)
    (hdrop : ∀ die, p die → die.active = true → p { die with dropped := true })
    (action : SelectionAction) (extreme : Extreme) (count : Nat) :
    ∀ die ∈ action.apply extreme count dice, p die := by
  intro die hdie
  obtain ⟨⟨before, place⟩, hmem, rfl⟩ := List.mem_map.mp hdie
  have hplace : dice[place]? = some before := List.mem_zipIdx_iff_getElem?.mp hmem
  have hbefore : p before := hdice before (List.mem_of_getElem? hplace)
  show p (if place ∈ action.excluded extreme count dice then { before with dropped := true }
    else before)
  split
  · next hexcluded => exact hdrop before hbefore (active_of_mem_excluded hplace hexcluded)
  · exact hbefore

end Tabletop
