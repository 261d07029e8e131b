/-
  Selections: some of the active dice are kept or dropped, counted off from one end of their order
  by face.

  1. The order is made by insertion, each die before those that it need not follow, so dice of equal
     face stay in the order in which they lie, from whichever end the counting starts.
  2. A selection marks dice and moves none: it works out the places of those that go, and marks
     these.
-/
import Tabletop.Roll.Basic

namespace Tabletop

/-- Whether a face may come before another when counting starts at an end. -/
def Extreme.precedes (extreme : Extreme) (a b : Int) : Bool :=
  match extreme with
  | .high => b ≤ a
  | .low => a ≤ b

/-- Puts a die with its place into dice that are in order. -/
def Extreme.insert (extreme : Extreme) (entry : Die × Nat) : List (Die × Nat) → List (Die × Nat)
  | [] => [entry]
  | other :: rest =>
    if extreme.precedes entry.1.face other.1.face then entry :: other :: rest
    else other :: extreme.insert entry rest

/-- Dice with their places, in the order in which they are counted off. -/
def Extreme.sort (extreme : Extreme) : List (Die × Nat) → List (Die × Nat)
  | [] => []
  | entry :: rest => extreme.insert entry (extreme.sort rest)

/-- The places of the active dice in the order in which they are counted off. -/
def Extreme.ranking (extreme : Extreme) (dice : List Die) : List Nat :=
  (extreme.sort (dice.zipIdx.filter (·.1.active))).map (·.2)

/-- The places of the dice that a selection takes out. -/
def SelectionAction.excluded (action : SelectionAction) (extreme : Extreme) (count : Nat)
    (dice : List Die) : List Nat :=
  match action with
  | .keep => (extreme.ranking dice).drop count
  | .drop => (extreme.ranking dice).take count

/-- The dice with those at the given places marked as dropped. -/
def dropAt (places : List Nat) (dice : List Die) : List Die :=
  dice.zipIdx.map fun (die, place) => if place ∈ places then { die with dropped := true } else die

/-- The dice after a selection of so many. -/
def SelectionAction.apply (action : SelectionAction) (extreme : Extreme) (count : Nat)
    (dice : List Die) : List Die :=
  dropAt (action.excluded extreme count dice) dice

namespace Rolling

/-- The dice of a term after its selections, one modifier after the other. -/
def applySelections (setup : Setup) : List Selection → List Die → Rolling (List Die)
  | [], dice => pure dice
  | selection :: rest, dice => do
    let count ← resolve setup selection.count
    if count < 0 then refuse (.negativeSelection count)
    else applySelections setup rest (selection.action.apply selection.extreme count.toNat dice)

theorem applySelections_cons (setup : Setup) (selection : Selection) (rest : List Selection)
    (dice : List Die) :
    applySelections setup (selection :: rest) dice =
      resolve setup selection.count >>= fun count =>
        if count < 0 then refuse (.negativeSelection count)
        else applySelections setup rest
          (selection.action.apply selection.extreme count.toNat dice) :=
  rfl

end Rolling

end Tabletop
