/-
  Rerolls: dice whose face meets a condition are replaced.

  1. A modifier looks at the dice that lie there when it starts, in order.  Each active one that
     meets the condition is marked and replaced; replacements are put behind all others and are not
     looked at again by the same modifier.
  2. A continuous reroll goes on while the replacement meets the condition, marking it and drawing
     again.  These further draws are counted over the whole term, and `spare` says how many are
     left: without any, the replacement stays as it fell.

  So each die looked at ends in exactly one active die, and a chase spends a spare draw a round.
-/
import Tabletop.Roll.Basic

namespace Tabletop

namespace Rolling

/-- The replacements from the one that shows `face` on: all but the last met the condition and were
    replaced in turn.  With them, the spare draws left. -/
def chase (setup : Setup) (sides : Sides Int) (meets : Int → Bool) (face : Int) :
    Nat → Rolling (List Die × Nat)
  | 0 => do
    if meets face then note (.rerollLimit setup.limits.rerolls)
    return ([{ sides, face }], 0)
  | spare + 1 =>
    if meets face then do
      let next ← draw setup sides
      let (more, left) ← chase setup sides meets next spare
      return ({ sides, face, rerolled := true } :: more, left)
    else pure ([{ sides, face }], spare + 1)

/-- With a draw to spare, a face that meets the condition is drawn again. -/
theorem chase_succ (setup : Setup) (sides : Sides Int) (meets : Int → Bool) (face : Int)
    (spare : Nat) :
    chase setup sides meets face (spare + 1) =
      if meets face then
        draw setup sides >>= fun next => chase setup sides meets next spare >>= fun r =>
          pure ({ sides, face, rerolled := true } :: r.1, r.2)
      else pure ([{ sides, face }], spare + 1) :=
  rfl

/-- The dice that replace one, and the spare draws left. -/
def replace (setup : Setup) (sides : Sides Int) (mode : RerollMode) (meets : Int → Bool)
    (spare : Nat) : Rolling (List Die × Nat) := do
  let face ← draw setup sides
  match mode with
  | .once => pure ([{ sides, face }], spare)
  | .continuous => chase setup sides meets face spare

/-- What a reroll makes of dice: the same dice with those marked that were replaced, the
    replacements in the order of drawing, and the spare draws left. -/
structure Rerolled where
  marked : List Die
  added : List Die
  spare : Nat
  deriving DecidableEq, Repr

/-- Rerolls, die by die, those that are active and meet the condition. -/
def rerollEach (setup : Setup) (sides : Sides Int) (mode : RerollMode) (meets : Int → Bool) :
    Nat → List Die → Rolling Rerolled
  | spare, [] => pure ⟨[], [], spare⟩
  | spare, die :: rest =>
    if die.active && meets die.face then do
      let (new, left) ← replace setup sides mode meets spare
      let after ← rerollEach setup sides mode meets left rest
      return ⟨{ die with rerolled := true } :: after.marked, new ++ after.added, after.spare⟩
    else do
      let after ← rerollEach setup sides mode meets spare rest
      return { after with marked := die :: after.marked }

/-- The first die is replaced if it counts and meets the condition, then the others with what is
    left to spare. -/
theorem rerollEach_cons (setup : Setup) (sides : Sides Int) (mode : RerollMode)
    (meets : Int → Bool) (spare : Nat) (die : Die) (rest : List Die) :
    rerollEach setup sides mode meets spare (die :: rest) =
      if die.active && meets die.face then
        replace setup sides mode meets spare >>= fun r =>
          rerollEach setup sides mode meets r.2 rest >>= fun after =>
            pure ⟨{ die with rerolled := true } :: after.marked, r.1 ++ after.added, after.spare⟩
      else rerollEach setup sides mode meets spare rest >>= fun after =>
        pure { after with marked := die :: after.marked } :=
  rfl

/-- The dice of a term after its rerolls, one modifier after the other, and the spare draws left. -/
def applyRerolls (setup : Setup) (sides : Sides Int) :
    List Reroll → Nat → List Die → Rolling (List Die × Nat)
  | [], spare, dice => pure (dice, spare)
  | reroll :: rest, spare, dice => do
    let threshold ← resolve setup reroll.threshold
    let after ← rerollEach setup sides reroll.mode (reroll.comparison.holds · threshold) spare dice
    applyRerolls setup sides rest after.spare (after.marked ++ after.added)

theorem applyRerolls_cons (setup : Setup) (sides : Sides Int) (reroll : Reroll)
    (rest : List Reroll) (spare : Nat) (dice : List Die) :
    applyRerolls setup sides (reroll :: rest) spare dice =
      resolve setup reroll.threshold >>= fun threshold =>
        rerollEach setup sides reroll.mode (reroll.comparison.holds · threshold) spare dice >>=
          fun after => applyRerolls setup sides rest after.spare (after.marked ++ after.added) :=
  rfl

end Rolling

end Tabletop
