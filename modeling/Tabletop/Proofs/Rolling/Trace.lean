/-
  Traces: a roll as it shows in its surroundings.

  A roll draws dice, looks up variables and notes events.  What it draws and looks up is answered
  from outside, and nothing else from outside reaches it but the limits.  So the steps of one run,
  each with its answer, determine the run: wherever the same answers are given under the same
  limits, the same steps are taken to the same end.

  `Traced` says this of a roll, together with what its steps have to do with its value: `D` relates
  the dice drawn to it, and every name looked up passes `P`.  It is closed under what rolls are put
  together with, so that each function of a roll needs one lemma, whose proof follows its text.
-/
import Tabletop.Proofs.Bindings
import Tabletop.Proofs.Run
import Tabletop.Roll.Basic

namespace Tabletop

/-- A die that can be drawn: it has a face at least. -/
def Sides.Rollable : Sides Int → Prop
  | .faces n => 1 ≤ n
  | .fate => True

namespace Rolling

/-! ## Steps -/

/-- A step, with the answer to it: a die is drawn and shows a face, a variable is looked up and has
    a value, or an event is noted. -/
inductive Step where
  | draw (sides : Sides Int) (face : Int)
  | lookup (name : String) (value : Int)
  | note (event : Event)

namespace Step

/-- The answer is the one that is given there. -/
def Given (setup : Setup) (ledger : Ledger) : Step → Prop
  | draw sides face => setup.source ledger.requests sides.bound = some (sides.drawOf face)
  | lookup name value => setup.table.get? name = some value
  | note _ => True

/-- What a step leaves behind. -/
def leave (ledger : Ledger) : Step → Ledger
  | draw sides _ => { ledger with requests := ledger.requests.push sides.bound }
  | lookup name value => { ledger with used := ledger.used.insert name value }
  | note event => { ledger with events := ledger.events.push event }

/-- A die that is drawn can be drawn, and a name that is looked up passes `P`. -/
def Sound (P : String → Prop) : Step → Prop
  | draw sides _ => sides.Rollable
  | lookup name _ => P name
  | note _ => True

/-- The die that a step draws. -/
def drawn? : Step → Option (Sides Int × Int)
  | draw sides face => some (sides, face)
  | _ => none

end Step

/-! ## Several steps -/

/-- The ledger after steps. -/
def after (ledger : Ledger) : List Step → Ledger
  | [] => ledger
  | step :: rest => after (step.leave ledger) rest

/-- All the answers are given, one after the other. -/
def Given (setup : Setup) (ledger : Ledger) : List Step → Prop
  | [] => True
  | step :: rest => step.Given setup ledger ∧ Given setup (step.leave ledger) rest

/-- The dice that are drawn, in order. -/
def drawn (steps : List Step) : List (Sides Int × Int) := steps.filterMap Step.drawn?

/-- Steps in a row change the ledger one after the other. -/
theorem after_append (ledger : Ledger) (steps more : List Step) :
    after ledger (steps ++ more) = after (after ledger steps) more := by
  induction steps generalizing ledger with
  | nil => rfl
  | cons step steps ih => exact ih _

/-- Steps in a row are given if each part is, the second one behind the first. -/
theorem given_append (setup : Setup) (ledger : Ledger) (steps more : List Step) :
    Given setup ledger (steps ++ more) ↔
      Given setup ledger steps ∧ Given setup (after ledger steps) more := by
  induction steps generalizing ledger with
  | nil => simp [Given, after]
  | cons step steps ih => simp [Given, after, ih, and_assoc]

theorem drawn_append (steps more : List Step) : drawn (steps ++ more) = drawn steps ++ drawn more :=
  List.filterMap_append

/-- The names that are looked up with their values, in order. -/
def lookups (steps : List Step) : List (String × Int) :=
  steps.filterMap fun | .lookup name value => some (name, value) | _ => none

/-- The source answers with those faces, one after the other. -/
def Answered (source : Source) (earlier : Array Nat) : List (Sides Int × Int) → Prop
  | [] => True
  | (sides, face) :: rest =>
    source earlier sides.bound = some (sides.drawOf face) ∧
      Answered source (earlier.push sides.bound) rest

/-- What is given to a roll is what its source answers and what its table holds. -/
theorem given_iff (setup : Setup) (ledger : Ledger) (steps : List Step) :
    Given setup ledger steps ↔ Answered setup.source ledger.requests (drawn steps) ∧
      ∀ entry ∈ lookups steps, setup.table.get? entry.1 = some entry.2 := by
  induction steps generalizing ledger with
  | nil => simp [Given, drawn, lookups, Answered]
  | cons step steps ih =>
    rw [Given, ih]
    cases step with
    | draw sides face =>
      show (_ ∧ _ ∧ _) ↔ (_ ∧ _) ∧ _
      rw [and_assoc]
      exact Iff.rfl
    | lookup name value =>
      show (_ ∧ Answered _ ledger.requests (drawn steps) ∧ _) ↔
        Answered _ ledger.requests (drawn steps) ∧ ∀ entry ∈ (name, value) :: lookups steps, _
      rw [List.forall_mem_cons]
      exact and_left_comm
    | note event => exact and_iff_right trivial

/-- Each draw is one request. -/
theorem requests_after (ledger : Ledger) (steps : List Step) :
    (after ledger steps).requests =
      ledger.requests ++ ((drawn steps).map fun die => die.1.bound).toArray := by
  induction steps generalizing ledger with
  | nil => simp [after, drawn]
  | cons step steps ih =>
    rw [after, ih]
    cases step with
    | draw sides face =>
      show ledger.requests.push sides.bound ++ _ =
        ledger.requests ++ (sides.bound :: (drawn steps).map fun die => die.1.bound).toArray
      rw [← Array.toList_inj]
      simp
    | lookup name value => rfl
    | note event => rfl

/-- Each name that is looked up is noted with its value. -/
theorem used_after (ledger : Ledger) (steps : List Step) :
    (after ledger steps).used = ledger.used.bindAll (lookups steps) := by
  induction steps generalizing ledger with
  | nil => rfl
  | cons step steps ih =>
    rw [after, ih]
    cases step <;> rfl

/-- Every die that is drawn in sound steps can be rolled. -/
theorem rollable_of_mem_drawn {P : String → Prop} {steps : List Step}
    (h : ∀ step ∈ steps, step.Sound P) : ∀ die ∈ drawn steps, die.1.Rollable := by
  intro die hdie
  obtain ⟨step, hstep, heq⟩ := List.mem_filterMap.mp hdie
  cases step <;> cases heq
  exact h _ hstep

/-- Every name that is looked up in sound steps passes. -/
theorem of_mem_lookups {P : String → Prop} {steps : List Step}
    (h : ∀ step ∈ steps, step.Sound P) : ∀ entry ∈ lookups steps, P entry.1 := by
  intro entry hentry
  obtain ⟨step, hstep, heq⟩ := List.mem_filterMap.mp hentry
  cases step <;> cases heq
  exact h _ hstep

/-! ## Whole runs -/

/-- Why a run ends without a value: because of a value on the way, because a die gets no answer, or
    because a variable has no value. -/
inductive Failure where
  | hazard (hazard : Hazard)
  | dry (sides : Sides Int)
  | unknown (name : String)

namespace Failure

/-- Where a run ends for want of an answer, there is none. -/
def Given (setup : Setup) (ledger : Ledger) : Failure → Prop
  | hazard _ => True
  | dry sides => setup.source ledger.requests sides.bound = none
  | unknown name => setup.table.get? name = none

/-- The fault that a run ends with. -/
def fault : Failure → Fault
  | hazard h => .expr (.hazard h)
  | dry _ => .defect .noDraws
  | unknown name => .expr (.undefined name)

end Failure

/-- What a run comes to, whatever it leaves behind. -/
def ended {α : Type} : EStateM.Result Fault Ledger α → Except Fault α
  | .ok a _ => .ok a
  | .error fault _ => .error fault

/-- The steps of a run, and what it comes to. -/
structure Trace (α : Type) where
  steps : List Step
  ending : Except Failure α

namespace Trace

variable {α : Type}

/-- The surroundings answer as the trace says. -/
def Given (setup : Setup) (ledger : Ledger) (trace : Trace α) : Prop :=
  Rolling.Given setup ledger trace.steps ∧
    ∀ failure, trace.ending = .error failure → failure.Given setup (after ledger trace.steps)

/-- The outcome of a run with that trace. -/
def result (ledger : Ledger) (trace : Trace α) : EStateM.Result Fault Ledger α :=
  match trace.ending with
  | .ok a => .ok a (after ledger trace.steps)
  | .error failure => .error failure.fault (after ledger trace.steps)

/-- Of what was left behind before, a trace looks at the requests only. -/
theorem given_of_requests (trace : Trace α) {setup : Setup} {ledger ledger' : Ledger}
    (hreq : ledger.requests = ledger'.requests) (h : trace.Given setup ledger) :
    trace.Given setup ledger' := by
  refine ⟨?_, fun failure hfailure => ?_⟩
  · have hsteps := h.1
    rw [given_iff, hreq, ← given_iff] at hsteps
    exact hsteps
  · have hend := h.2 failure hfailure
    cases failure with
    | hazard _ => trivial
    | dry sides =>
      rw [Failure.Given, requests_after, ← hreq, ← requests_after]
      exact hend
    | unknown name => exact hend

/-- What the outcome of a run is apart from the ledger. -/
theorem ended_result (trace : Trace α) (ledger : Ledger) :
    ended (trace.result ledger) = trace.ending.mapError Failure.fault := by
  rw [result]
  cases trace.ending <;> rfl

end Trace

/-- **Traced**: every run of the roll under the limits has a trace; the names it looks up pass `P`,
    the dice it draws stand in the relation `D` to its value; and wherever the trace is given, the
    run is the same. -/
def Traced {α : Type} (limits : Limits) (P : String → Prop)
    (D : List (Sides Int × Int) → α → Prop) (roll : Setup → Rolling α) : Prop :=
  ∀ (setup : Setup) (ledger : Ledger), setup.limits = limits →
    ∃ trace : Trace α, trace.Given setup ledger ∧ (∀ step ∈ trace.steps, step.Sound P) ∧
      (∀ a, trace.ending = .ok a → D (drawn trace.steps) a) ∧
        ∀ (setup' : Setup) (ledger' : Ledger), setup'.limits = limits →
          trace.Given setup' ledger' → roll setup' ledger' = trace.result ledger'

namespace Traced

variable {α β : Type} {limits : Limits} {P : String → Prop}
variable {D : List (Sides Int × Int) → α → Prop} {E : List (Sides Int × Int) → β → Prop}

/-- Less may be said of the draws. -/
theorem mono {D' : List (Sides Int × Int) → α → Prop} {roll : Setup → Rolling α}
    (h : Traced limits P D roll) (hD : ∀ draws a, D draws a → D' draws a) :
    Traced limits P D' roll := by
  intro setup ledger hlim
  obtain ⟨trace, hgiven, hsound, hvalue, hrun⟩ := h setup ledger hlim
  exact ⟨trace, hgiven, hsound, fun a ha => hD _ a (hvalue a ha), hrun⟩

/-- The limits may stand for themselves. -/
theorem congr {roll roll' : Setup → Rolling α} (h : Traced limits P D roll)
    (heq : ∀ setup, setup.limits = limits → roll' setup = roll setup) :
    Traced limits P D roll' := by
  intro setup ledger hlim
  obtain ⟨trace, hgiven, hsound, hvalue, hrun⟩ := h setup ledger hlim
  refine ⟨trace, hgiven, hsound, hvalue, fun setup' ledger' hlim' hgiven' => ?_⟩
  rw [heq setup' hlim']
  exact hrun setup' ledger' hlim' hgiven'

theorem pure {a : α} (h : D [] a) : Traced limits P D fun _ => pure a := by
  intro setup ledger _
  refine ⟨⟨[], .ok a⟩, ⟨trivial, nofun⟩, by simp, ?_, fun _ _ _ _ => rfl⟩
  rintro _ ⟨⟩
  exact h

theorem refuse (hazard : Hazard) : Traced limits P D fun _ => Rolling.refuse hazard := by
  intro setup ledger _
  refine ⟨⟨[], .error (.hazard hazard)⟩, ⟨trivial, ?_⟩, by simp, nofun, fun _ _ _ _ => rfl⟩
  rintro _ ⟨⟩
  trivial

/-- Of two rolls in a row the second goes on where the first stopped, and its steps stand behind
    those of the first; but a first one that fails is all. -/
theorem bind {roll : Setup → Rolling α} {next : α → Setup → Rolling β}
    (h : Traced limits P D roll)
    (hnext : ∀ draws a, D draws a → Traced limits P (fun more b => E (draws ++ more) b) (next a)) :
    Traced limits P E fun setup => roll setup >>= fun a => next a setup := by
  intro setup ledger hlim
  obtain ⟨⟨steps, ending⟩, ⟨hgiven, hend⟩, hsound, hvalue, hrun⟩ := h setup ledger hlim
  cases ending with
  | error failure =>
    -- The second roll is never begun; the trace has another type of value and no value.
    refine ⟨⟨steps, .error failure⟩, ⟨hgiven, ?_⟩, hsound, nofun, ?_⟩
    · rintro _ ⟨⟩
      exact hend failure rfl
    · rintro setup' ledger' hlim' ⟨hgiven', hend'⟩
      have hfirst := hrun setup' ledger' hlim' ⟨hgiven', fun f hf => hend' f (by cases hf; rfl)⟩
      exact Run.bind_of_error hfirst
  | ok a =>
    obtain ⟨⟨more, ending⟩, ⟨hgiven₂, hend₂⟩, hsound₂, hvalue₂, hrun₂⟩ :=
      hnext _ a (hvalue a rfl) setup (after ledger steps) hlim
    refine ⟨⟨steps ++ more, ending⟩, ⟨?_, ?_⟩, ?_, ?_, ?_⟩
    · exact (given_append _ _ _ _).mpr ⟨hgiven, hgiven₂⟩
    · rw [after_append]
      exact hend₂
    · intro step hstep
      rcases List.mem_append.mp hstep with hstep | hstep
      · exact hsound step hstep
      · exact hsound₂ step hstep
    · intro b hb
      rw [drawn_append]
      exact hvalue₂ b hb
    · rintro setup' ledger' hlim' ⟨hgiven', hend'⟩
      rw [given_append] at hgiven'
      rw [after_append] at hend'
      have hfirst := hrun setup' ledger' hlim' ⟨hgiven'.1, nofun⟩
      have hsecond := hrun₂ setup' (after ledger' steps) hlim' ⟨hgiven'.2, hend'⟩
      show (roll setup' >>= fun a => next a setup') ledger' = _
      rw [Run.bind_of_ok hfirst, hsecond, Trace.result, Trace.result, after_append]

/-- A choice is traced if both of its ways are. -/
theorem ite {c : Prop} [Decidable c] {x y : Setup → Rolling α} (hx : c → Traced limits P D x)
    (hy : ¬ c → Traced limits P D y) :
    Traced limits P D fun setup => if c then x setup else y setup := by
  by_cases hc : c
  · simpa only [if_pos hc] using hx hc
  · simpa only [if_neg hc] using hy hc

/-- A run that comes to a value, by its steps: wherever they are given, so is the value. -/
theorem of_eq_ok {roll : Setup → Rolling α} {setup : Setup} {ledger ledger' : Ledger} {a : α}
    (h : Traced setup.limits P D roll) (hok : roll setup ledger = .ok a ledger') :
    ∃ steps, Given setup ledger steps ∧ (∀ step ∈ steps, step.Sound P) ∧ D (drawn steps) a ∧
      ledger' = after ledger steps ∧
        ∀ (other : Setup) (start : Ledger), other.limits = setup.limits →
          Given other start steps → roll other start = .ok a (after start steps) := by
  obtain ⟨⟨steps, ending⟩, ⟨hgiven, hend⟩, hsound, hvalue, hrun⟩ := h setup ledger rfl
  have hresult := (hrun setup ledger rfl ⟨hgiven, hend⟩).symm.trans hok
  cases ending with
  | error failure => cases hresult
  | ok b =>
    cases hresult
    exact ⟨steps, hgiven, hsound, hvalue a rfl, rfl,
      fun other start hlim hgiven' => hrun other start hlim ⟨hgiven', nofun⟩⟩

/-- What a run comes to hangs on the requests from before, not on what else was left behind. -/
theorem ended_eq {roll : Setup → Rolling α} {setup : Setup} {ledger ledger' : Ledger}
    (h : Traced setup.limits P D roll) (hreq : ledger.requests = ledger'.requests) :
    ended (roll setup ledger) = ended (roll setup ledger') := by
  obtain ⟨trace, hgiven, -, -, hrun⟩ := h setup ledger rfl
  rw [hrun setup ledger rfl hgiven, hrun setup ledger' rfl (trace.given_of_requests hreq hgiven),
    Trace.ended_result, Trace.ended_result]

/-- Where every request is answered, a run fails because of a value or a variable only. -/
theorem fault_of_answering {roll : Setup → Rolling α} {setup : Setup} {ledger : Ledger}
    {fault : Fault} (h : Traced setup.limits P D roll)
    (hsource : ∀ earlier bound, setup.source earlier bound ≠ none)
    (hfault : ended (roll setup ledger) = .error fault) :
    (∃ hazard, fault = .expr (.hazard hazard)) ∨ ∃ name, fault = .expr (.undefined name) := by
  obtain ⟨⟨steps, ending⟩, hgiven, -, -, hrun⟩ := h setup ledger rfl
  rw [hrun setup ledger rfl hgiven, Trace.ended_result] at hfault
  cases ending with
  | ok a => cases hfault
  | error failure =>
    cases hfault
    cases failure with
    | hazard hazard => exact Or.inl ⟨hazard, rfl⟩
    | dry sides => exact absurd (hgiven.2 _ rfl) (hsource _ _)
    | unknown name => exact Or.inr ⟨name, rfl⟩

end Traced

/-! ## Single steps -/

variable {limits : Limits} {P : String → Prop}

theorem note_traced (event : Event) :
    Traced limits P (fun draws _ => draws = []) fun _ => note event := by
  intro setup ledger _
  refine ⟨⟨[.note event], .ok ()⟩, ⟨⟨trivial, trivial⟩, nofun⟩, ?_, fun _ _ => rfl, ?_⟩
  · simp [Step.Sound]
  · exact fun _ _ _ _ => rfl

/-- Whether an event is noted on the way makes no difference to what follows. -/
theorem noteIf_traced {α : Type} {D : List (Sides Int × Int) → α → Prop} {c : Prop} [Decidable c]
    (event : Event) {next : Setup → Rolling α} (h : Traced limits P D next) :
    Traced limits P D fun setup =>
      if c then note event >>= fun _ => next setup else next setup := by
  refine .ite (fun _ => .bind (note_traced event) ?_) fun _ => h
  rintro _ _ rfl
  exact h

/-- A draw is one step, with the die and the face in it. -/
theorem draw_traced {sides : Sides Int} (h : sides.Rollable) :
    Traced limits P (fun draws face => draws = [(sides, face)]) (draw · sides) := by
  intro setup ledger _
  cases hanswer : setup.source ledger.requests sides.bound with
  | none =>
    refine ⟨⟨[], .error (.dry sides)⟩, ⟨trivial, ?_⟩, by simp, nofun, ?_⟩
    · rintro _ ⟨⟩
      exact hanswer
    · rintro setup' ledger' _ ⟨-, hdry⟩
      have hnone : setup'.source ledger'.requests sides.bound = none := hdry _ rfl
      simp only [draw, hnone]
      rfl
  | some n =>
    have hn : sides.drawOf (sides.faceOf n) = n := Sides.drawOf_faceOf sides n
    refine ⟨⟨[.draw sides (sides.faceOf n)], .ok (sides.faceOf n)⟩, ⟨⟨?_, trivial⟩, nofun⟩,
      ?_, ?_, ?_⟩
    · rw [Step.Given, hn]
      exact hanswer
    · simpa [Step.Sound] using h
    · rintro _ ⟨⟩
      rfl
    · rintro setup' ledger' _ ⟨⟨hsome, -⟩, -⟩
      rw [Step.Given, hn] at hsome
      simp only [draw, hsome]
      rfl

/-- Looking up an operand is one step or none, and draws nothing. -/
theorem resolve_traced {operand : Operand} (h : Named P operand) :
    Traced limits P (fun draws _ => draws = []) (resolve · operand) := by
  cases operand with
  | number n => exact .pure rfl
  | named name =>
    intro setup ledger _
    cases hvalue : setup.table.get? name with
    | none =>
      refine ⟨⟨[], .error (.unknown name)⟩, ⟨trivial, ?_⟩, by simp, nofun, ?_⟩
      · rintro _ ⟨⟩
        exact hvalue
      · rintro setup' ledger' _ ⟨-, hunknown⟩
        have hnone : setup'.table.get? name = none := hunknown _ rfl
        simp only [resolve, hnone]
        rfl
    | some n =>
      refine ⟨⟨[.lookup name n], .ok n⟩, ⟨⟨hvalue, trivial⟩, nofun⟩, ?_, fun _ _ => rfl, ?_⟩
      · intro step hstep
        obtain rfl := List.mem_singleton.mp hstep
        exact h
      · rintro setup' ledger' _ ⟨⟨hsome, -⟩, -⟩
        have hsome' : setup'.table.get? name = some n := hsome
        simp only [resolve, hsome']
        rfl

end Rolling

end Tabletop
