/-
  What a roll is made with, and what it leaves behind.

  A roll draws from a source, looks up variables and keeps to limits (`Setup`); as it goes on it
  leaves the requests it made, the variables it looked up and the events worth noting (`Ledger`).
  What it left stays when it fails: `Rolling` returns the ledger with the fault, too.
-/
import Tabletop.Bindings
import Tabletop.Event
import Tabletop.Source

namespace Tabletop

/-- How far a roll may go: extra dice by explosion and replacements by continuous rerolls in one
    term, dice in one term, faces of a die. -/
structure Limits where
  explosions : Int := 100
  rerolls : Int := 100
  dice : Int := 1000
  sides : Int := 10000
  deriving DecidableEq, Repr

/-- What a roll is made with: `table` holds the variables, their names in upper case, and `depth` is
    how deep operators and target checks may lie inside one another. -/
structure Setup where
  source : Source
  limits : Limits
  table : Bindings Int
  depth : Nat

/-- What a roll has left behind so far: the bounds of its requests, oldest first, the variables it
    looked up with their values, and its events. -/
structure Ledger where
  requests : Array Nat := #[]
  used : Bindings Int := []
  events : Array Event := #[]
  deriving DecidableEq

/-- A step of a roll: a value or a fault, and the ledger. -/
abbrev Rolling (α : Type) := EStateM Fault Ledger α

namespace Rolling

/-- Notes an event. -/
def note (event : Event) : Rolling Unit := fun ledger =>
  .ok () { ledger with events := ledger.events.push event }

/-- Draws the face of a die. -/
def draw (setup : Setup) (sides : Sides Int) : Rolling Int := fun ledger =>
  match setup.source ledger.requests sides.bound with
  | some n => .ok (sides.faceOf n) { ledger with requests := ledger.requests.push sides.bound }
  | none => .error (.defect .noDraws) ledger

/-- Draws a die. -/
def drawDie (setup : Setup) (sides : Sides Int) : Rolling Die := do
  return { sides, face := ← draw setup sides }

/-- Draws so many dice. -/
def drawDice (setup : Setup) (sides : Sides Int) (role : Option String) : Nat → Rolling (List Die)
  | 0 => pure []
  | n + 1 => do
    let face ← draw setup sides
    let more ← drawDice setup sides role n
    pure ({ sides, face, role } :: more)

theorem drawDice_succ (setup : Setup) (sides : Sides Int) (role : Option String) (n : Nat) :
    drawDice setup sides role (n + 1) =
      draw setup sides >>= fun face => drawDice setup sides role n >>= fun more =>
        pure ({ sides, face, role } :: more) :=
  rfl

/-- The value of an operand; a variable that is looked up is noted with its value. -/
def resolve (setup : Setup) : Operand → Rolling Int
  | .number n => pure n
  | .named name => fun ledger =>
    match setup.table.get? name with
    | some n => .ok n { ledger with used := ledger.used.insert name n }
    | none => .error (.expr (.undefined name)) ledger

/-- Fails because of a value. -/
def refuse {α : Type} (hazard : Hazard) : Rolling α := throw (.expr (.hazard hazard))

/-- The value of an operand that must lie between two bounds. -/
def resolveWithin (setup : Setup) (what : Quantity) (minimum maximum : Int) (operand : Operand) :
    Rolling Int := do
  let n ← resolve setup operand
  if n < minimum ∨ maximum < n then refuse (.outOfRange what minimum maximum n) else pure n

end Rolling

end Tabletop
