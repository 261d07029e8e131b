/-
  Dice that were drawn.

  A die keeps its place in the list of rolls for good: the modifiers that take it out of the count
  only mark it.
-/
import Tabletop.Expr
import Tabletop.Numeral

namespace Tabletop

/-- A die that was drawn.

    `exploded`: it brought an extra die.  `dropped`: a selection took it out.  `rerolled`: another
    die replaced it.  `success`: it met a success check.  `role`: its part in a Hope/Fear roll. -/
structure Die where
  sides : Sides Int
  face : Int
  exploded : Bool := false
  dropped : Bool := false
  rerolled : Bool := false
  success : Bool := false
  role : Option String := none
  deriving DecidableEq, Repr

namespace Die

/-- Whether the die still counts. -/
def active (die : Die) : Bool := !die.dropped && !die.rerolled

end Die

namespace Role

/-- The die of hope in a Hope/Fear roll. -/
def hope : String := "hope"

/-- The die of fear in a Hope/Fear roll. -/
def fear : String := "fear"

/-- A die of the pool that adds to a Hope/Fear roll. -/
def advantage : String := "advantage"

/-- A die of the pool that takes from a Hope/Fear roll. -/
def disadvantage : String := "disadvantage"

end Role

namespace Sides

/-- The bound of the draw for a die: a Fate die is one draw in three. -/
def bound : Sides Int → Nat
  | .faces n => n.toNat
  | .fate => 3

/-- The face that a draw shows: a Fate die counts from -1. -/
def faceOf : Sides Int → Int → Int
  | .faces _, n => n
  | .fate, n => n - 2

/-- The draw that shows a face. -/
def drawOf : Sides Int → Int → Int
  | .faces _, face => face
  | .fate, face => face + 2

/-- The largest face of a die. -/
def maxFace : Sides Int → Int
  | .faces n => n
  | .fate => 1

/-- The size of a die as it stands after the letter d. -/
def text : Sides Int → String
  | .faces n => Numeral.decimal n
  | .fate => "F"

/-- A face determines the draw that shows it. -/
theorem faceOf_drawOf (sides : Sides Int) (face : Int) :
    sides.faceOf (sides.drawOf face) = face := by
  cases sides <;> simp [faceOf, drawOf]

/-- A draw determines the face that it shows. -/
theorem drawOf_faceOf (sides : Sides Int) (n : Int) : sides.drawOf (sides.faceOf n) = n := by
  cases sides <;> simp [faceOf, drawOf]

end Sides

end Tabletop
