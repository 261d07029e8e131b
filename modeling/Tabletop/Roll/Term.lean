/-
  One term: dice with their modifiers, or a Hope/Fear roll.

  The modifiers of a dice term take effect by kind, in the order rerolls, explosions, selections,
  success checks, whatever order they were written in; inside a kind the written order holds.
  A Hope/Fear roll takes no modifiers: it says so and ignores them.
-/
import Tabletop.Roll.Explosion
import Tabletop.Roll.Reroll
import Tabletop.Roll.Selection

namespace Tabletop

/-! ## Tallies -/

/-- The two dice of a Hope/Fear roll. -/
structure HopeFear where
  hope : Int
  fear : Int
  deriving DecidableEq, Repr

/-- Which of the two dice won. -/
def HopeFear.tag (pair : HopeFear) : String :=
  if pair.hope = pair.fear then "Critical" else if pair.fear < pair.hope then "Hope" else "Fear"

/-- How a target check went: the value was, or was not, as the comparison with the threshold
    asks. -/
structure Verdict where
  comparison : Comparison
  threshold : Int
  passed : Bool
  deriving DecidableEq, Repr

/-- What an expression came to: its value, the dice drawn for it in order, how many dice met success
    checks if there were any, its Hope/Fear pair and the verdict of its target check. -/
structure Tally where
  value : Int
  dice : List Die := []
  successes : Option Int := none
  pair : Option HopeFear := none
  verdict : Option Verdict := none
  deriving DecidableEq, Repr

namespace Rolling

/-! ## Dice -/

/-- The values that success checks compare with, one check after the other. -/
def resolveChecks (setup : Setup) : List SuccessCheck → Rolling (List (Comparison × Int))
  | [] => pure []
  | check :: rest => do
    let threshold ← resolve setup check.threshold
    let more ← resolveChecks setup rest
    pure ((check.comparison, threshold) :: more)

theorem resolveChecks_cons (setup : Setup) (check : SuccessCheck) (rest : List SuccessCheck) :
    resolveChecks setup (check :: rest) =
      resolve setup check.threshold >>= fun threshold => resolveChecks setup rest >>= fun more =>
        pure ((check.comparison, threshold) :: more) :=
  rfl

/-- The dice with those marked that are active and meet one of the checks. -/
def markSuccesses (checks : List (Comparison × Int)) (dice : List Die) : List Die :=
  dice.map fun die =>
    if die.active && checks.any (fun check => check.1.holds die.face check.2) then
      { die with success := true }
    else die

/-- The faces of the dice that count, added. -/
def activeSum : List Die → Int
  | [] => 0
  | die :: rest => if die.active then die.face + activeSum rest else activeSum rest

/-- How many dice are marked as successes. -/
def successCount (dice : List Die) : Nat := dice.countP (·.success)

/-- The tally of dice whose other modifiers have taken effect. -/
def countUp (setup : Setup) (checks : List SuccessCheck) (dice : List Die) : Rolling Tally :=
  if checks.isEmpty then pure { value := activeSum dice, dice }
  else do
    let dice := markSuccesses (← resolveChecks setup checks) dice
    let successes : Int := successCount dice
    pure { value := successes, dice, successes := some successes }

/-- The size of the dice of a term. -/
def resolveSides (setup : Setup) : Sides Operand → Rolling (Sides Int)
  | .fate => pure .fate
  | .faces operand => .faces <$> resolveWithin setup .sides 1 setup.limits.sides operand

theorem resolveSides_faces (setup : Setup) (operand : Operand) :
    resolveSides setup (.faces operand) =
      resolveWithin setup .sides 1 setup.limits.sides operand >>= fun n => pure (.faces n) :=
  map_eq_pure_bind _ _

/-- Rolls a dice term. -/
def diceTerm (setup : Setup) (count : Operand) (sides : Sides Operand)
    (modifiers : List Modifier) : Rolling Tally := do
  let n ← resolveWithin setup .dice 1 setup.limits.dice count
  let sides ← resolveSides setup sides
  let dice ← drawDice setup sides none n.toNat
  let (dice, _) ←
    applyRerolls setup sides (Modifier.rerolls modifiers) setup.limits.rerolls.toNat dice
  let dice ← applyExplosions setup sides (Modifier.explosions modifiers) 0 dice
  let dice ← applySelections setup (Modifier.selections modifiers) dice
  let tally ← countUp setup (Modifier.successChecks modifiers) dice
  note (.resolved n sides modifiers.length (tally.dice.map (·.face)) tally.value)
  return tally

/-! ## Hope and Fear -/

/-- The dice of hope and fear have twelve faces. -/
def pairSides : Sides Int := .faces 12

/-- The dice of the pools have six. -/
def poolSides : Sides Int := .faces 6

/-- The largest face of a pool, and 0 for an empty one. -/
def best (dice : List Die) : Int := ((dice.map (·.face)).max?).getD 0

/-- Rolls a Hope/Fear term: both dice, the best of one pool added, the best of the other taken. -/
def hopeFearTerm (setup : Setup) (advantage disadvantage : Operand) (modifiers : List Modifier) :
    Rolling Tally := do
  let advantages ← resolveWithin setup .advantage 0 setup.limits.dice advantage
  let disadvantages ← resolveWithin setup .disadvantage 0 setup.limits.dice disadvantage
  if !modifiers.isEmpty then note (.ignoredModifiers modifiers.length)
  let hope ← draw setup pairSides
  let fear ← draw setup pairSides
  let helping ← drawDice setup poolSides (some Role.advantage) advantages.toNat
  let hindering ← drawDice setup poolSides (some Role.disadvantage) disadvantages.toNat
  return {
    value := hope + fear + best helping - best hindering
    dice := [{ sides := pairSides, face := hope, role := some Role.hope },
      { sides := pairSides, face := fear, role := some Role.fear }] ++ helping ++ hindering
    pair := some ⟨hope, fear⟩ }

end Rolling

end Tabletop
