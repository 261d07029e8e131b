/-
  Settings: the limits of rolls, and how expressions are read.

  The integers among the settings have bounds.  Settings are read from the environment and from the
  lines of a file; what reads them is not fixed here.  It is a function from outside, which gives
  settings or says what is wrong, and all that is asked of it is that it keeps to the bounds.
-/
import Tabletop.Roll.Basic

namespace Tabletop

/-- The limits of rolls, and how expressions are read: how deep parentheses may nest, and whether
    stray characters are refused.  `debug` asks for a log of all events. -/
structure Settings where
  limits : Limits := {}
  maxDepth : Int := 50
  strict : Bool := false
  debug : Bool := false
  deriving DecidableEq, Repr

/-- What holds of all settings that may be used. -/
structure Settings.Valid (settings : Settings) : Prop where
  explosions : 1 ≤ settings.limits.explosions
  rerolls : 1 ≤ settings.limits.rerolls
  dice : 1 ≤ settings.limits.dice
  sides : 1 ≤ settings.limits.sides
  depth : 1 ≤ settings.maxDepth ∧ settings.maxDepth ≤ 100

/-! ## Fields -/

/-- The fields of the settings. -/
inductive Field where
  | explodeLimit
  | rerollLimit
  | maxDice
  | maxSides
  | maxDepth
  | strict
  | debug
  deriving DecidableEq, Repr

/-- The bounds of an integer. -/
structure Bounds where
  minimum : Option Int := none
  maximum : Option Int := none
  deriving DecidableEq, Repr

/-- An integer lies within bounds. -/
def Bounds.Admits (bounds : Bounds) (n : Int) : Prop :=
  (∀ m ∈ bounds.minimum, m ≤ n) ∧ ∀ m ∈ bounds.maximum, n ≤ m

instance (bounds : Bounds) (n : Int) : Decidable (bounds.Admits n) :=
  inferInstanceAs (Decidable (_ ∧ _))

namespace Field

/-- What a field is called. -/
def label : Field → String
  | explodeLimit => "explode_limit"
  | rerollLimit => "reroll_limit"
  | maxDice => "max_dice"
  | maxSides => "max_sides"
  | maxDepth => "max_depth"
  | strict => "strict_lexing"
  | debug => "debug"

/-- What the environment and the file call a field, in lower case. -/
def variableName (field : Field) : String := "dicelang_" ++ field.label

/-- The bounds declared for a field. -/
def bounds : Field → Bounds
  | explodeLimit | rerollLimit | maxDice | maxSides => { minimum := some 1 }
  | maxDepth => { minimum := some 1, maximum := some 100 }
  | strict | debug => {}

end Field

/-- The integer that a field holds, if it holds no flag. -/
def Settings.integer? (settings : Settings) : Field → Option Int
  | .explodeLimit => some settings.limits.explosions
  | .rerollLimit => some settings.limits.rerolls
  | .maxDice => some settings.limits.dice
  | .maxSides => some settings.limits.sides
  | .maxDepth => some settings.maxDepth
  | .strict | .debug => none

/-! ## Readers -/

/-- Where settings are read from: the environment variables and the lines of the settings file. -/
structure Origin where
  environment : Bindings String := []
  file : List String := []
  deriving DecidableEq, Repr

/-- What reads settings: it gives settings, or says what is wrong. -/
abbrev SettingsReader (E : Type) := Origin → Except E Settings

/-- A reader keeps to the bounds declared for the fields. -/
def SettingsReader.Enforces {E : Type} (read : SettingsReader E) : Prop :=
  ∀ origin settings, read origin = .ok settings →
    ∀ field, ∀ n ∈ settings.integer? field, field.bounds.Admits n

end Tabletop
