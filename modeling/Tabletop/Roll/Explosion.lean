/-
  Explosions: a die whose face meets a condition brings an extra die.

  The dice are gone through in order, and an extra die is put behind all others, so that the scan
  reaches it in turn and chains go on.  Explosions are counted over the whole term; when as many
  have happened as the limit in force allows, the scan stops where it is.

  A step either passes a die or spends one of the explosions left while the number of dice ahead
  stays the same: the sum of both bounds the scan.
-/
import Tabletop.Roll.Basic

namespace Tabletop

namespace Rolling

/-- How far a scan came: the dice it passed, those still ahead when it stopped, and the explosions
    left. -/
structure Scan where
  passed : List Die
  ahead : List Die
  spare : Nat
  deriving DecidableEq, Repr

/-- Goes through dice while explosions are left. -/
def scan (setup : Setup) (sides : Sides Int) (meets : Int → Bool) (spare : Nat) :
    List Die → Rolling Scan
  | [] => pure ⟨[], [], spare⟩
  | die :: rest =>
    match spare with
    | 0 => pure ⟨[], die :: rest, 0⟩
    | left + 1 =>
      if die.active && !die.exploded && meets die.face then do
        let extra ← drawDie setup sides
        let after ← scan setup sides meets left (rest ++ [extra])
        return { after with passed := { die with exploded := true } :: after.passed }
      else do
        let after ← scan setup sides meets (left + 1) rest
        return { after with passed := die :: after.passed }
termination_by dice => spare + dice.length

theorem scan_nil (setup : Setup) (sides : Sides Int) (meets : Int → Bool) (spare : Nat) :
    scan setup sides meets spare [] = pure ⟨[], [], spare⟩ := by
  rw [scan]

/-- Without spare draws no die is looked at. -/
theorem scan_zero (setup : Setup) (sides : Sides Int) (meets : Int → Bool) (dice : List Die) :
    scan setup sides meets 0 dice = pure ⟨[], dice, 0⟩ := by
  cases dice <;> rw [scan]

/-- A die that explodes costs a draw, and its extra die is looked at behind the others. -/
theorem scan_cons (setup : Setup) (sides : Sides Int) (meets : Int → Bool) (left : Nat) (die : Die)
    (rest : List Die) :
    scan setup sides meets (left + 1) (die :: rest) =
      if die.active && !die.exploded && meets die.face then
        drawDie setup sides >>= fun extra => scan setup sides meets left (rest ++ [extra]) >>=
          fun after => pure { after with passed := { die with exploded := true } :: after.passed }
      else scan setup sides meets (left + 1) rest >>= fun after =>
        pure { after with passed := die :: after.passed } := by
  rw [scan]

/-- The face that an explosion compares with. -/
def explosionThreshold (setup : Setup) (sides : Sides Int) (explosion : Explosion) :
    Rolling Int :=
  match explosion.threshold with
  | none => pure sides.maxFace
  | some operand => resolve setup operand

/-- The dice of a term after its explosions, one modifier after the other; `count` explosions have
    happened before. -/
def applyExplosions (setup : Setup) (sides : Sides Int) :
    List Explosion → Nat → List Die → Rolling (List Die)
  | [], _, dice => pure dice
  | explosion :: rest, count, dice => do
    let threshold ← explosionThreshold setup sides explosion
    let limit := explosion.limit.getD setup.limits.explosions
    let spare := (limit - count).toNat
    let after ← scan setup sides (explosion.comparison.holds · threshold) spare dice
    if after.spare = 0 ∧ after.ahead ≠ [] then note (.explosionLimit limit)
    applyExplosions setup sides rest (count + (spare - after.spare)) (after.passed ++ after.ahead)

theorem applyExplosions_cons (setup : Setup) (sides : Sides Int) (explosion : Explosion)
    (rest : List Explosion) (count : Nat) (dice : List Die) :
    applyExplosions setup sides (explosion :: rest) count dice =
      explosionThreshold setup sides explosion >>= fun threshold =>
        scan setup sides (explosion.comparison.holds · threshold)
            (explosion.limit.getD setup.limits.explosions - count).toNat dice >>= fun after =>
          if after.spare = 0 ∧ after.ahead ≠ [] then
            note (.explosionLimit (explosion.limit.getD setup.limits.explosions)) >>= fun _ =>
              applyExplosions setup sides rest
                (count + ((explosion.limit.getD setup.limits.explosions - count).toNat -
                  after.spare))
                (after.passed ++ after.ahead)
          else
            applyExplosions setup sides rest
              (count + ((explosion.limit.getD setup.limits.explosions - count).toNat -
                after.spare))
              (after.passed ++ after.ahead) :=
  rfl

end Rolling

end Tabletop
