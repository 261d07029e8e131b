/-
  A reader of settings.

  Settings are put together from layers: arguments win over the environment, the environment over
  the lines of the file, and these over the defaults.  In every layer names count in any letter
  case; of several spellings of one name the first counts among arguments, and the last in the
  others.  Only the value that wins is looked at.  It is turned into what its field holds; every
  field whose value cannot be, or lies out of its bounds, is complained of.
-/
import Tabletop.Settings
import Tabletop.Settings.File
import Tabletop.Settings.Given

namespace Tabletop

open Text

/-- An integer, unless it lies out of the bounds. -/
def Bounds.check (bounds : Bounds) (n : Int) : Except Complaint Int :=
  if bounds.minimum.any (n < ·) then .error .tooSmall
  else if bounds.maximum.any (· < n) then .error .tooLarge
  else .ok n

/-! ## Layers -/

/-- Where the values of the fields come from: arguments, by the label of the field, and environment
    variables and the entries of a file, by its variable name. -/
structure Layers where
  arguments : Bindings Given := []
  environment : Bindings String := []
  file : Bindings (Option String) := []
  deriving DecidableEq, Repr

namespace Layers

/-- The argument whose name is the label of a field in any letter case; of arguments that differ in
    case only the first one counts. -/
def argument? (arguments : Bindings Given) (field : Field) : Option Given :=
  (arguments.find? fun entry => lowered entry.1 == field.label).map (·.2)

/-- What the variable name of a field is bound to in any letter case; of bindings that differ in
    case only the last one counts. -/
def bound? {α : Type} (entries : Bindings α) (field : Field) : Option α :=
  (entries.reverse.find? fun entry => lowered entry.1 == field.variableName).map (·.2)

/-- The value given for a field by the highest layer that has one. -/
def given? (layers : Layers) (field : Field) : Option Given :=
  match argument? layers.arguments field with
  | some value => some value
  | none =>
    match bound? layers.environment field with
    | some value => some (.text value)
    | none => (bound? layers.file field).join.map .text

/-- The integer of a field. -/
def integer (layers : Layers) (field : Field) (default : Int) : Except Complaint Int :=
  match layers.given? field with
  | none => .ok default
  | some value => value.integer?.bind field.bounds.check

/-- The flag of a field. -/
def flag (layers : Layers) (field : Field) (default : Bool) : Except Complaint Bool :=
  match layers.given? field with
  | none => .ok default
  | some value => value.flag?

end Layers

/-! ## Putting settings together -/

/-- The complaint about a field, if there is one. -/
def complaintOf {α : Type} (field : Field) : Except Complaint α → List (Field × Complaint)
  | .ok _ => []
  | .error complaint => [(field, complaint)]

namespace Settings

/-- The settings that layers give, or all that is wrong with them. -/
def ofLayers (layers : Layers) : Except (List (Field × Complaint)) Settings :=
  let standard : Settings := {}
  let explosions := layers.integer .explodeLimit standard.limits.explosions
  let rerolls := layers.integer .rerollLimit standard.limits.rerolls
  let dice := layers.integer .maxDice standard.limits.dice
  let sides := layers.integer .maxSides standard.limits.sides
  let depth := layers.integer .maxDepth standard.maxDepth
  let strict := layers.flag .strict standard.strict
  let debug := layers.flag .debug standard.debug
  match explosions, rerolls, dice, sides, depth, strict, debug with
  | .ok e, .ok r, .ok d, .ok s, .ok n, .ok l, .ok b =>
    .ok { limits := ⟨e, r, d, s⟩, maxDepth := n, strict := l, debug := b }
  | _, _, _, _, _, _, _ =>
    .error <|
      complaintOf .explodeLimit explosions ++ complaintOf .rerollLimit rerolls ++
      complaintOf .maxDice dice ++ complaintOf .maxSides sides ++ complaintOf .maxDepth depth ++
      complaintOf .strict strict ++ complaintOf .debug debug

/-- The settings that the environment and the lines of a file give. -/
def ofOrigin : SettingsReader (List (Field × Complaint)) := fun origin =>
  ofLayers {
    environment := origin.environment
    file := SettingsFile.entries origin.environment origin.file }

end Settings

end Tabletop
