/-
  Names bound to values, in the order in which the names were first bound.

  Binding a name again keeps its place and changes its value.  Names that differ in case only are
  different here; `upperCased` is what a table looks like to those who ignore case, and there the
  entry that comes last wins.
-/
import Tabletop.Text.Case

namespace Tabletop

/-- Names with their values, each name once, in the order of their first binding. -/
abbrev Bindings (α : Type) := List (String × α)

namespace Bindings

variable {α : Type}

/-- The value of a name. -/
def get? (bindings : Bindings α) (name : String) : Option α := bindings.lookup name

/-- Binds a name: in its place when it is bound, else at the end. -/
def insert (name : String) (value : α) : Bindings α → Bindings α
  | [] => [(name, value)]
  | (key, old) :: rest =>
    if key = name then (key, value) :: rest else (key, old) :: insert name value rest

/-- The bindings that result from binding pair after pair. -/
def ofPairs (pairs : List (String × α)) : Bindings α :=
  pairs.foldl (fun bindings pair => insert pair.1 pair.2 bindings) []

/-- Takes a name away. -/
def erase (name : String) (bindings : Bindings α) : Bindings α :=
  bindings.filter fun entry => entry.1 != name

/-- The names, in order. -/
def names (bindings : Bindings α) : List String := bindings.map (·.1)

/-- The bindings with their names in upper case. -/
def upperCased (bindings : Bindings α) : Bindings α :=
  ofPairs (bindings.map fun entry => (Text.uppered entry.1, entry.2))

example : ofPairs [("a", 1), ("b", 2), ("a", 3)] = [("a", 3), ("b", 2)] := by decide
example : upperCased [("a", 1), ("A", 2)] = [("A", 2)] := by decide +kernel

end Bindings

end Tabletop
