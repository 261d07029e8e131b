/-
  **Audit**: the requests of an evaluation and the dice that it reports are one for one, in order.

  The dice of a report are the dice drawn, the requests are the draws, and both come in the order of
  the steps: the i-th request is for the size of the i-th die, and the die shows what the source
  answered to it.  A source that keeps to its bounds therefore gives no face that a die has not.
-/
import Tabletop.Proofs.Evaluation.Stages
import Tabletop.Proofs.Rolling.Record

namespace Tabletop

open Rolling

/-! ## Sizes and faces -/

/-- The bound of the draw for a die, as an integer: a Fate die is one draw in three. -/
def Sides.size : Sides Int → Int
  | .faces n => n
  | .fate => 3

/-- The die shows a face that dice of its size have. -/
def Die.InRange (die : Die) : Prop :=
  match die.sides with
  | .faces n => 1 ≤ die.face ∧ die.face ≤ n
  | .fate => die.face = -1 ∨ die.face = 0 ∨ die.face = 1

/-- A source that answers with numbers from 1 to the bound only. -/
def Source.WithinBounds (source : Source) : Prop :=
  ∀ earlier bound n, source earlier bound = some n → 1 ≤ n ∧ n ≤ bound

/-- The bound of a die that can be rolled is the number of its sides. -/
theorem Sides.bound_eq_size {sides : Sides Int} (h : sides.Rollable) :
    (sides.bound : Int) = sides.size := by
  cases sides with
  | faces n =>
    have hn : 1 ≤ n := h
    exact Int.toNat_of_nonneg (by omega)
  | fate => rfl

/-- A die whose draw lies within its bound shows one of its faces. -/
theorem Die.inRange_of_drawOf {die : Die} (h : die.sides.Rollable)
    (hlow : 1 ≤ die.sides.drawOf die.face) (hhigh : die.sides.drawOf die.face ≤ die.sides.bound) :
    die.InRange := by
  rw [Sides.bound_eq_size h] at hhigh
  unfold Die.InRange
  cases hs : die.sides with
  | faces n =>
    rw [hs] at hlow hhigh
    exact ⟨hlow, hhigh⟩
  | fate =>
    rw [hs] at hlow hhigh
    have hlow' : 1 ≤ die.face + 2 := hlow
    have hhigh' : die.face + 2 ≤ 3 := hhigh
    show die.face = -1 ∨ die.face = 0 ∨ die.face = 1
    omega

/-! ## The audit -/

/-- The requests `made` after `earlier` ones, and dice, are one for one: each request is for the
    size of its die, and what the source answered then is what the die shows. -/
structure Audited (source : Source) (earlier : Array Nat) (made : List Nat) (rolls : List Die) :
    Prop where
  length : made.length = rolls.length
  request {i : Nat} {b : Nat} {die : Die} :
    made[i]? = some b → rolls[i]? = some die → (b : Int) = die.sides.size
  answer {i : Nat} {b : Nat} {die : Die} :
    made[i]? = some b → rolls[i]? = some die →
      ∃ n, source (earlier ++ (made.take i).toArray) b = some n ∧ die.face = die.sides.faceOf n

/-- Answers in a row, taken singly. -/
theorem answer_of_getElem? {source : Source} {draws : List (Sides Int × Int)} :
    ∀ {earlier : Array Nat}, Answered source earlier draws → ∀ {i : Nat} {sides : Sides Int}
      {face : Int}, draws[i]? = some (sides, face) →
        source (earlier ++ ((draws.take i).map fun die => die.1.bound).toArray) sides.bound =
          some (sides.drawOf face) := by
  induction draws with
  | nil => exact fun _ _ _ _ h => by simp at h
  | cons draw draws ih =>
    intro earlier hanswered i sides face hi
    obtain ⟨hfirst, hrest⟩ := hanswered
    cases i with
    | zero =>
      obtain rfl : draw = (sides, face) := by simpa using hi
      simpa using hfirst
    | succ i =>
      have hi' : draws[i]? = some (sides, face) := by simpa using hi
      have hlater := ih hrest hi'
      rw [← hlater]
      congr 1
      simp

/-- What a trace draws passes the audit. -/
theorem audited_of_answered {source : Source} {earlier : Array Nat} {rolls : List Die}
    (hanswered : Answered source earlier (shown rolls))
    (hrollable : ∀ die ∈ rolls, die.sides.Rollable) :
    Audited source earlier (rolls.map (·.sides.bound)) rolls := by
  have hbound : ∀ {i : Nat} {b : Nat} {die : Die}, (rolls.map (·.sides.bound))[i]? = some b →
      rolls[i]? = some die → b = die.sides.bound := by
    intro i b die hb hdie
    rw [List.getElem?_map, hdie] at hb
    exact (Option.some.inj hb).symm
  refine ⟨List.length_map _, fun hb hdie => ?_, fun {i b die} hb hdie => ?_⟩
  · rw [hbound hb hdie]
    exact Sides.bound_eq_size (hrollable _ (List.mem_of_getElem? hdie))
  · have hshown : (shown rolls)[i]? = some (die.sides, die.face) := by
      rw [shown, List.getElem?_map, hdie]
      rfl
    have hanswer := answer_of_getElem? hanswered hshown
    refine ⟨die.sides.drawOf die.face, ?_, (Sides.faceOf_drawOf _ _).symm⟩
    rw [hbound hb hdie, ← hanswer, shown, ← List.map_take, ← List.map_take, List.map_map]
    rfl

/-- **Completeness of the audit.**  Where an evaluation gives a report, the requests that it added
    to those from before and the dice of the report are one for one; and from a source that keeps to
    its bounds no die shows a face that it has not. -/
theorem evaluate_audited {expr : Expr} {setup : Setup} {expression : String}
    {before after : Ledger} {report : Report}
    (h : expr.evaluate setup expression before = .ok report after) :
    ∃ made : List Nat, after.requests = before.requests ++ made.toArray ∧
      Audited setup.source before.requests made report.rolls ∧
        (setup.source.WithinBounds → ∀ die ∈ report.rolls, die.InRange) := by
  obtain ⟨tally, hroll, hreport⟩ := evaluate_eq_ok.mp h
  obtain ⟨hrolls, -⟩ := of_ofTally_eq_ok hreport
  obtain ⟨steps, hgiven, hsound, hshown, rfl, -⟩ :=
    (roll_traced (namedAll_of_roll_eq_ok _ _ _ _ hroll) setup.depth).of_eq_ok hroll
  rw [given_iff, ← hshown] at hgiven
  have hrollable : ∀ die ∈ tally.dice, die.sides.Rollable := fun die hdie =>
    rollable_of_mem_drawn hsound _ (by rw [← hshown]; exact List.mem_map_of_mem hdie)
  have haudited := audited_of_answered hgiven.1 hrollable
  rw [hrolls]
  refine ⟨_, ?_, haudited, fun hwithin die hdie => ?_⟩
  · rw [requests_after, ← hshown, shown, List.map_map]
    rfl
  · obtain ⟨i, hi⟩ := List.mem_iff_getElem?.mp hdie
    have hrequest : (tally.dice.map (·.sides.bound))[i]? = some die.sides.bound := by
      rw [List.getElem?_map, hi]
      rfl
    obtain ⟨n, hn, hface⟩ := haudited.answer hrequest hi
    have hdraw : die.sides.drawOf die.face = n := by rw [hface, Sides.drawOf_faceOf]
    obtain ⟨hlow, hhigh⟩ := hwithin _ _ _ hn
    exact Die.inRange_of_drawOf (hrollable die hdie) (by rw [hdraw]; exact hlow)
      (by rw [hdraw]; exact hhigh)

/-- Two Fate dice, of which the second explodes: three requests for a number up to 3. -/
theorem evaluate_audited_fate :
    ∃ report after,
      (Expr.dice (.number 2) .fate [.explosion ⟨.ge, none, none⟩]).evaluate
          ⟨Source.cycle #[1, 3, 2], {}, [], 9⟩ "2df!" {} = .ok report after ∧
        ∃ made : List Nat, after.requests = #[] ++ made.toArray ∧
          Audited (Source.cycle #[1, 3, 2]) #[] made report.rolls ∧
            ((Source.cycle #[1, 3, 2]).WithinBounds → ∀ die ∈ report.rolls, die.InRange) := by
  obtain ⟨tally, after, hroll, hfigures⟩ : ∃ tally after,
      (Expr.dice (.number 2) .fate [.explosion ⟨.ge, none, none⟩]).roll
        ⟨Source.cycle #[1, 3, 2], {}, [], 9⟩ 9 {} = .ok tally after ∧
          tally.figures = [-1, 1, 0, 0] :=
    ⟨{ value := 0
       dice := [{ sides := .fate, face := -1 }, { sides := .fate, face := 1, exploded := true },
         { sides := .fate, face := 0 }] },
      { requests := #[3, 3, 3], events := #[.resolved 2 .fate 1 [-1, 1, 0] 0] }, by cbv, rfl⟩
  have hshort : ∀ n ∈ tally.figures, n.natAbs < Nat.pow 10 1 := by
    rw [hfigures]
    decide
  obtain ⟨report, hreport⟩ := exists_report hshort (by decide) "2df!" after.used
  refine ⟨report, after, ?run, evaluate_audited ?run⟩
  exact evaluate_eq_ok.mpr ⟨tally, hroll, hreport⟩

end Tabletop
