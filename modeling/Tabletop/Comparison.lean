/-
  The five comparisons that conditions and target checks share.
-/

namespace Tabletop

/-- A comparison of two integers. -/
inductive Comparison where
  | ge
  | gt
  | eq
  | le
  | lt
  deriving DecidableEq, Repr

namespace Comparison

/-- How a comparison is written. -/
def symbol : Comparison → String
  | ge => ">="
  | gt => ">"
  | eq => "="
  | le => "<="
  | lt => "<"

/-- The comparison that is written so. -/
def ofSymbol? (s : String) : Option Comparison :=
  [ge, gt, eq, le, lt].find? (·.symbol == s)

/-- Whether `left` compares so to `right`. -/
def holds (comparison : Comparison) (left right : Int) : Bool :=
  match comparison with
  | ge => right ≤ left
  | gt => right < left
  | eq => left == right
  | le => left ≤ right
  | lt => left < right

/-- Each comparison is read back from its symbol. -/
theorem ofSymbol?_symbol (c : Comparison) : ofSymbol? c.symbol = some c := by
  cases c <;> decide

end Comparison

end Tabletop
