/-
  Settings kept from one use to the next.

  The first access has settings read from what the environment and the file hold then, and keeps
  them; later accesses get the same ones, whatever became of these, until they are dropped.  An
  access that fails keeps nothing, so the next one has settings read again.
-/
import Tabletop.Settings

namespace Tabletop

/-- Where settings are read from now, and the settings kept: with a serial number that is new for
    every time that settings are read. -/
structure Cache where
  origin : Origin := {}
  kept : Option (Nat × Settings) := none
  serial : Nat := 0
  deriving DecidableEq, Repr

namespace Cache

variable {E : Type}

/-- Drops the settings kept. -/
def clear (cache : Cache) : Cache := { cache with kept := none }

/-- The settings in use with their serial number, kept or read now. -/
def access (read : SettingsReader E) (cache : Cache) : Except E (Nat × Settings) × Cache :=
  match cache.kept with
  | some entry => (.ok entry, cache)
  | none =>
    match read cache.origin with
    | .ok settings =>
      let entry := (cache.serial, settings)
      (.ok entry, { cache with kept := some entry, serial := cache.serial + 1 })
    | .error complaints => (.error complaints, cache)

end Cache

end Tabletop
