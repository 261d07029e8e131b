/-
  What a roll yields, and from which draws.

  1. **Yields** — a roll that draws dice of one size, and looks up only what has a value, fails in
     one way: a request is not answered.  `Yields setup sides Q roll` says this of a roll, together
     with what its value has to do with the faces that were drawn and the events that were noted
     (`Q`).  So it says that a value is there, which `Ensures` leaves open.
  2. **In a row** — it is closed under what rolls are put together with, and of two rolls in a row
     the faces and the events of the first stand in front.
-/
import Tabletop.Proofs.Rolling.Ensures
import Tabletop.Proofs.Rolling.Trace

namespace Tabletop

/-- The dice that show those faces, as they are drawn. -/
def Sides.dice (sides : Sides Int) (faces : List Int) : List Die :=
  faces.map fun face => { sides, face }

/-- There is one die for each face. -/
theorem Sides.length_dice (sides : Sides Int) (faces : List Int) :
    (sides.dice faces).length = faces.length :=
  List.length_map _

/-- The die counts and meets the condition. -/
def Die.fits (meets : Int → Bool) (die : Die) : Bool := die.active && meets die.face

namespace Rolling

/-! ## Events -/

/-- The events that are noted, in order. -/
def noted (steps : List Step) : List Event :=
  steps.filterMap fun | .note event => some event | _ => none

/-- Events are noted in the order of the steps. -/
theorem noted_append (steps more : List Step) : noted (steps ++ more) = noted steps ++ noted more :=
  List.filterMap_append

/-! ## Yields -/

section Yields

variable {α β : Type} {setup : Setup} {sides : Sides Int}

/-- The run took steps that were given to it and drew dice of that size only; it came to a value
    that stands in the relation `Q` to the faces and the events, or to a request without an
    answer. -/
inductive Yielded (setup : Setup) (sides : Sides Int) (Q : α → List Int → List Event → Prop)
    (before : Ledger) : EStateM.Result Fault Ledger α → Prop where
  | ok {a : α} (steps : List Step) (faces : List Int) (given : Given setup before steps)
      (drawn : drawn steps = faces.map (sides, ·)) (value : Q a faces (noted steps)) :
      Yielded setup sides Q before (.ok a (after before steps))
  | dry (steps : List Step) (faces : List Int) (given : Given setup before steps)
      (drawn : drawn steps = faces.map (sides, ·))
      (unanswered : setup.source (after before steps).requests sides.bound = none) :
      Yielded setup sides Q before (.error (.defect .noDraws) (after before steps))

/-- From whatever ledger it starts, the roll comes to such an end. -/
def Yields (setup : Setup) (sides : Sides Int) (Q : α → List Int → List Event → Prop)
    (roll : Rolling α) : Prop :=
  ∀ before : Ledger, Yielded setup sides Q before (roll before)

namespace Yields

variable {Q Q' : α → List Int → List Event → Prop} {S : β → List Int → List Event → Prop}

/-- Less may be said of a value than is known of it. -/
theorem mono {roll : Rolling α} (h : Yields setup sides Q roll)
    (hQ : ∀ a faces events, Q a faces events → Q' a faces events) :
    Yields setup sides Q' roll := by
  intro before
  have hrun := h before
  generalize roll before = result at hrun ⊢
  cases hrun with
  | ok steps faces given drawn value => exact .ok steps faces given drawn (hQ _ _ _ value)
  | dry steps faces given drawn unanswered => exact .dry steps faces given drawn unanswered

/-- A value needs no dice and notes nothing. -/
theorem pure {a : α} (h : Q a [] []) : Yields setup sides Q (pure a) :=
  fun _ => .ok [] [] trivial rfl h

/-- Of two rolls in a row the second goes on from a value that the first one yields. -/
theorem bind {roll : Rolling α} {next : α → Rolling β} (h : Yields setup sides Q roll)
    (hnext : ∀ a faces events, Q a faces events →
      Yields setup sides (fun b more later => S b (faces ++ more) (events ++ later)) (next a)) :
    Yields setup sides S (roll >>= next) := by
  intro before
  have hfirst := h before
  generalize hroll : roll before = result at hfirst
  cases hfirst with
  | dry steps faces given drawn unanswered =>
    rw [Run.bind_of_error hroll]
    exact .dry steps faces given drawn unanswered
  | @ok a steps faces given drawn value =>
    rw [Run.bind_of_ok hroll]
    -- The steps of the second roll go on from where those of the first led to.
    have hsecond := hnext a faces _ value (after before steps)
    generalize next a (after before steps) = result at hsecond
    have hdrawn : ∀ {later more}, Rolling.drawn later = more.map (sides, ·) →
        Rolling.drawn (steps ++ later) = (faces ++ more).map (sides, ·) := by
      intro later more hlater
      rw [drawn_append, drawn, hlater, List.map_append]
    cases hsecond with
    | ok later more given' drawn' value' =>
      rw [← after_append]
      rw [← noted_append] at value'
      exact .ok _ _ ((given_append _ _ _ _).mpr ⟨given, given'⟩) (hdrawn drawn') value'
    | dry later more given' drawn' unanswered' =>
      rw [← after_append] at unanswered' ⊢
      exact .dry _ _ ((given_append _ _ _ _).mpr ⟨given, given'⟩) (hdrawn drawn') unanswered'

/-- A choice yields what both of its ways do. -/
theorem ite {c : Prop} [Decidable c] {x y : Rolling α} (hx : c → Yields setup sides Q x)
    (hy : ¬ c → Yields setup sides Q y) : Yields setup sides Q (if c then x else y) := by
  by_cases hc : c
  · rw [if_pos hc]
    exact hx hc
  · rw [if_neg hc]
    exact hy hc

end Yields

/-! ## Single steps -/

/-- Noting an event yields that event and no dice. -/
theorem note_yields (event : Event) :
    Yields setup sides (fun _ faces events => faces = [] ∧ events = [event]) (note event) :=
  fun _ => .ok [.note event] [] ⟨trivial, trivial⟩ rfl ⟨rfl, rfl⟩

theorem draw_yields :
    Yields setup sides (fun face faces events => faces = [face] ∧ events = [])
      (draw setup sides) := by
  intro before
  rw [draw]
  split
  · next n hanswer =>
    have hgiven : Given setup before [.draw sides (sides.faceOf n)] := by
      refine ⟨?_, trivial⟩
      rw [Step.Given, Sides.drawOf_faceOf, hanswer]
    exact .ok _ [sides.faceOf n] hgiven rfl ⟨rfl, rfl⟩
  · next hnone => exact .dry [] [] trivial rfl hnone

/-- A die that is drawn is the die of its face. -/
theorem drawDie_yields :
    Yields setup sides (fun die faces events => [die] = sides.dice faces ∧ events = [])
      (drawDie setup sides) := by
  show Yields _ _ _ (draw setup sides >>= fun face => Pure.pure ({ sides, face } : Die))
  refine .bind draw_yields fun face faces events hface => .pure ?_
  obtain ⟨rfl, rfl⟩ := hface
  exact ⟨rfl, rfl⟩

/-- An operand that has a value yields it without dice. -/
theorem resolve_yields {operand : Operand} {n : Int}
    (h : operand.value? setup.table = some n) :
    Yields setup sides (fun m faces events => m = n ∧ faces = [] ∧ events = [])
      (resolve setup operand) := by
  cases operand with
  | number m =>
    cases h
    exact .pure ⟨rfl, rfl, rfl⟩
  | named name =>
    have hget : setup.table.get? name = some n := h
    intro before
    rw [resolve, hget]
    exact .ok [.lookup name n] [] ⟨hget, trivial⟩ rfl ⟨rfl, rfl, rfl⟩

end Yields

end Rolling

end Tabletop
