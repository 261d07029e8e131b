/-
  How dice grow in number while modifiers take effect on them.

  1. **Rerolls** — a die that is replaced is marked, and behind all others come its replacements:
     all of them marked in turn but the last, which is active.  So every mark brought one die, and
     as many are active as before (`Replaced`).
  2. **Explosions** — a die that explodes is marked and stays active, and the one that it brings is
     active, too.  So every mark brought one die and one that is active (`Extended`).

  Nothing here knows how many draws there are or when a modifier stops.
-/
import Mathlib.Data.List.Basic
import Tabletop.Die

namespace Tabletop

/-! ## Replacements -/

/-- The dice that replace one: the last is active, those before it are marked as rerolled. -/
structure Chain (dice : List Die) : Prop where
  active : dice.countP (·.active) = 1
  rerolled : dice.length = 1 + dice.countP (·.rerolled)

/-- Every die that was marked as rerolled brought another, and as many are active as before. -/
structure Replaced (before after : List Die) : Prop where
  active : after.countP (·.active) = before.countP (·.active)
  rerolled : after.length + before.countP (·.rerolled) =
    before.length + after.countP (·.rerolled)

namespace Chain

/-- A die as it is drawn. -/
theorem drawn (sides : Sides Int) (face : Int) : Chain [{ sides, face }] := ⟨rfl, rfl⟩

/-- A replacement that is replaced in turn stands before those that follow. -/
theorem cons {dice : List Die} (h : Chain dice) (sides : Sides Int) (face : Int) :
    Chain ({ sides, face, rerolled := true } :: dice) := by
  obtain ⟨hactive, hrerolled⟩ := h
  constructor
  · simpa [Die.active] using hactive
  · rw [List.length_cons, List.countP_cons, if_pos rfl]
    omega

end Chain

namespace Replaced

theorem refl (dice : List Die) : Replaced dice dice := ⟨rfl, rfl⟩

theorem trans {first second third : List Die} (h : Replaced first second)
    (h' : Replaced second third) : Replaced first third := by
  obtain ⟨hactive, hrerolled⟩ := h
  obtain ⟨hactive', hrerolled'⟩ := h'
  constructor <;> omega

/-- A die that is left as it is. -/
theorem pass {before after : List Die} (h : Replaced before after) (die : Die) :
    Replaced (die :: before) (die :: after) := by
  obtain ⟨hactive, hrerolled⟩ := h
  constructor
  · rw [List.countP_cons, List.countP_cons, hactive]
  · rw [List.countP_cons, List.countP_cons, List.length_cons, List.length_cons]
    omega

/-- A die that is replaced is active no more; the last of its replacements is instead. -/
theorem mark {die : Die} (hactive : die.active = true) {rest marked new added : List Die}
    (hnew : Chain new) (h : Replaced rest (marked ++ added)) :
    Replaced (die :: rest) ({ die with rerolled := true } :: marked ++ (new ++ added)) := by
  have hfresh : die.rerolled = false := by
    simp only [Die.active, Bool.and_eq_true, Bool.not_eq_true'] at hactive
    exact hactive.2
  obtain ⟨hcount, hlength⟩ := h
  obtain ⟨hone, hchain⟩ := hnew
  rw [List.countP_append] at hcount
  rw [List.length_append, List.countP_append] at hlength
  constructor
  · have hgone : ({ die with rerolled := true } : Die).active = false := by simp [Die.active]
    simp only [List.cons_append, List.countP_cons, List.countP_append, hgone, hactive, hone]
    simp only [Bool.false_eq_true, if_false, if_true]
    omega
  · simp only [List.cons_append, List.countP_cons, List.countP_append, List.length_cons,
      List.length_append, hfresh]
    simp only [Bool.false_eq_true, if_false, if_true]
    omega

end Replaced

/-! ## Extra dice -/

/-- Every die that was marked as exploded brought another, which is active; none was taken out. -/
structure Extended (before after : List Die) : Prop where
  exploded : after.length + before.countP (·.exploded) =
    before.length + after.countP (·.exploded)
  active : after.countP (·.active) + before.length = before.countP (·.active) + after.length
  rerolled : after.countP (·.rerolled) = before.countP (·.rerolled)

namespace Extended

theorem refl (dice : List Die) : Extended dice dice := ⟨rfl, rfl, rfl⟩

theorem trans {first second third : List Die} (h : Extended first second)
    (h' : Extended second third) : Extended first third := by
  obtain ⟨hexploded, hactive, hrerolled⟩ := h
  obtain ⟨hexploded', hactive', hrerolled'⟩ := h'
  constructor <;> omega

/-- A die that is left as it is. -/
theorem pass {before after : List Die} (h : Extended before after) (die : Die) :
    Extended (die :: before) (die :: after) := by
  obtain ⟨hexploded, hactive, hrerolled⟩ := h
  constructor
  · rw [List.countP_cons, List.countP_cons, List.length_cons, List.length_cons]
    omega
  · rw [List.countP_cons, List.countP_cons, List.length_cons, List.length_cons]
    omega
  · rw [List.countP_cons, List.countP_cons, hrerolled]

/-- A die that explodes, with the extra die among those that follow. -/
theorem mark {die : Die} (hfresh : die.exploded = false) {rest after : List Die}
    {sides : Sides Int} {face : Int} (h : Extended (rest ++ [({ sides, face } : Die)]) after) :
    Extended (die :: rest) ({ die with exploded := true } :: after) := by
  obtain ⟨hexploded, hactive, hrerolled⟩ := h
  -- The extra die has no mark yet.
  have hextra : ({ sides, face } : Die).active = true := rfl
  simp only [List.countP_append, List.countP_singleton, List.length_append, List.length_singleton,
    hextra, Bool.false_eq_true, if_false, if_true] at hexploded hactive hrerolled
  have hstays : ({ die with exploded := true } : Die).active = die.active := rfl
  constructor
  · simp only [List.countP_cons, List.length_cons, hfresh, Bool.false_eq_true, if_false, if_true]
    omega
  · simp only [List.countP_cons, List.length_cons, hstays]
    omega
  · simp only [List.countP_cons]
    omega

end Extended

end Tabletop
