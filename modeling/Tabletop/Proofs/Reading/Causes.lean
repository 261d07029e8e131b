/-
  Why reading fails: the causes that each reader can give, whatever tokens there are.

  A reader refuses a token at a few places of its own, and elsewhere fails only where a reader that
  it is made of does.  So the causes are collected from the operands upwards.  What is wrong with
  dice is not among them: an atom is read where these cannot be, and it is the atom that fails then.
-/
import Tabletop.Proofs.Reading.Takes

namespace Tabletop.Reader

variable {α β : Type} {causes causes' : List MisfitCause}

/-! ## Causes of failure -/

/-- If the run failed because of a token, it was by one of these causes. -/
def CauseIn (causes : List MisfitCause) (result : EStateM.Result Fault Cursor α) : Prop :=
  ∀ cause token c, result = .error (.expr (.misfit ⟨cause, token⟩)) c → cause ∈ causes

/-- Wherever the reader fails because of a token, it is by one of these causes. -/
def FailsBy (causes : List MisfitCause) (x : Reader α) : Prop := ∀ c, CauseIn causes (x c)

/-- Of two readers in a row the second matters only where the first goes well. -/
theorem CauseIn.bind {x : Reader α} {f : α → Reader β} {c : Cursor} (hx : CauseIn causes (x c))
    (hf : ∀ a c', x c = .ok a c' → CauseIn causes (f a c')) : CauseIn causes ((x >>= f) c) := by
  cases hr : x c with
  | ok a c' =>
    rw [Run.bind_of_ok hr]
    exact hf a c' hr
  | error fault c' =>
    rw [Run.bind_of_error hr]
    rintro cause token c'' ⟨⟩
    exact hx cause token c' hr

namespace FailsBy

/-- More causes may be named than are needed. -/
theorem mono {x : Reader α} (hx : FailsBy causes x) (h : causes ⊆ causes') : FailsBy causes' x :=
  fun c cause token c' hr => h (hx c cause token c' hr)

/-- Two readers in a row fail by what either of them fails by. -/
theorem bind {x : Reader α} {f : α → Reader β} (hx : FailsBy causes x)
    (hf : ∀ a, FailsBy causes (f a)) : FailsBy causes (x >>= f) :=
  fun c => .bind (hx c) fun a c' _ => hf a c'

/-- What cannot fail does not fail by any cause. -/
theorem of_ok {x : Reader α} (h : ∀ c, ∃ a c', x c = .ok a c') : FailsBy causes x := by
  intro c cause token c' hr
  obtain ⟨a, c'', hok⟩ := h c
  rw [hok] at hr
  cases hr

theorem pure (a : α) : FailsBy causes (pure a : Reader α) := of_ok fun c => ⟨a, c, rfl⟩

theorem current : FailsBy causes Reader.current := of_ok fun c => ⟨c.current, c, rfl⟩

theorem take : FailsBy causes Reader.take := of_ok fun c => ⟨c.current, c.next, rfl⟩

theorem rounds : FailsBy causes Reader.rounds := of_ok fun c => ⟨c.unread, c, rfl⟩

/-- A refusal fails by its cause. -/
theorem refuse {cause : MisfitCause} {token : Token} (h : cause ∈ causes) :
    FailsBy causes (Reader.refuse cause token : Reader α) := by
  rintro c _ _ _ ⟨⟩
  exact h

/-- A defect is no failure because of a token. -/
theorem defect (d : Defect) : FailsBy causes (throw (.defect d) : Reader α) := by
  rintro c _ _ _ ⟨⟩

/-- What is made of a value does not fail. -/
theorem map {x : Reader α} (hx : FailsBy causes x) (f : α → β) : FailsBy causes (f <$> x) := by
  rw [map_eq_pure_bind]
  exact hx.bind fun a => .pure (f a)

end FailsBy

/-! ## Operands and modifiers -/

/-- The causes by which operands fail. -/
def operandCauses : List MisfitCause :=
  [.expected .number, .longNumber, .expected .named, .nameMissing, .operandMissing]

/-- Where a token of one kind is expected, a token of another kind is why reading fails. -/
theorem expect_failsBy {kind : TokenKind} (h : .expected kind ∈ causes) :
    FailsBy causes (expect kind) := by
  refine .bind .current fun token => ?_
  split
  · exact .take
  · exact .refuse h

/-- A number is refused for its length only. -/
theorem number_failsBy : FailsBy operandCauses number := by
  refine .bind (expect_failsBy (by decide)) fun token => ?_
  split
  · exact .refuse (by decide)
  · split
    · exact .pure _
    · exact .defect _

/-- A name is refused for its length only. -/
theorem name_failsBy : FailsBy operandCauses name := by
  refine .bind (expect_failsBy (by decide)) fun token => ?_
  split
  · exact .refuse (by decide)
  · exact .pure _

/-- An operand is refused for its length, or because it is none. -/
theorem operand_failsBy : FailsBy operandCauses operand := by
  refine .bind .current fun token => ?_
  split
  · exact number_failsBy.map _
  · exact name_failsBy.map _
  · exact .refuse (by decide)

theorem comparison_failsBy (token : Token) : FailsBy causes (comparison token) := by
  unfold comparison
  split
  · exact .pure _
  · exact .defect _

/-- A comparison that may be left out is never refused. -/
theorem comparison?_failsBy : FailsBy causes comparison? := by
  refine .bind .current fun token => ?_
  split
  · exact .bind .take fun token => (comparison_failsBy token).map _
  · exact .pure _

/-- A modifier whose word is known fails for want of an operand only. -/
theorem requested_failsBy (request : Request) : FailsBy operandCauses (requested request) := by
  cases request with
  | selection action extreme => exact operand_failsBy.bind fun x => .pure _
  | explosion =>
    refine .bind comparison?_failsBy fun op => ?_
    cases op with
    | some op => exact operand_failsBy.bind fun x => .pure _
    | none => exact .pure _
  | reroll mode => exact .bind comparison?_failsBy fun op => operand_failsBy.bind fun x => .pure _

/-! ## Expressions -/

/-- The causes by which expressions fail, with parentheses at most `limit` deep. -/
def expressionCauses (limit : Int) : List MisfitCause :=
  .nestedTooDeep limit :: .expected .closeParen :: .unexpected :: operandCauses

variable {limit : Int}

/-- Whatever an operand is refused for, the expression around it may be refused for. -/
theorem operandCauses_subset : operandCauses ⊆ expressionCauses limit :=
  fun _ h => List.mem_cons_of_mem _ (List.mem_cons_of_mem _ (List.mem_cons_of_mem _ h))

theorem unexpected_mem : .unexpected ∈ expressionCauses limit := by simp [expressionCauses]

/-- An atom fails as expressions do, if the expression in its parentheses does. -/
theorem atom_failsBy (inner : Option (Reader Expr))
    (h : ∀ expression ∈ inner, FailsBy (expressionCauses limit) expression) :
    FailsBy (expressionCauses limit) (atom limit inner) := by
  refine .bind .current fun token => ?_
  split
  · exact (number_failsBy.mono operandCauses_subset).map _
  · exact (name_failsBy.mono operandCauses_subset).map _
  · refine .bind (.of_ok fun c => ⟨(), _, rfl⟩) fun _ => ?_
    cases inner with
    | none => exact .refuse List.mem_cons_self
    | some expression =>
      exact .bind .take fun _ => (h expression rfl).bind fun e =>
        .bind (expect_failsBy (List.mem_cons_of_mem _ List.mem_cons_self)) fun _ =>
          .bind (.of_ok fun c => ⟨(), _, rfl⟩) fun _ => .pure e
  · exact .refuse unexpected_mem

/-- Where the attempt at dice fails because of a token, it is the atom that fails in the end. -/
theorem factor_failsBy {atom : Reader Expr} (h : FailsBy (expressionCauses limit) atom) :
    FailsBy (expressionCauses limit) (factor atom) := by
  intro c cause token c' hr
  unfold factor at hr
  split at hr
  · cases hr
  · exact h _ cause token c' hr
  · next fault c'' hne hdice =>
    cases hr
    exact absurd rfl (hne ⟨cause, token⟩)

/-- A chain of operators fails in its operands only: induction on the rounds. -/
theorem chainFrom_failsBy (accepted : List Operator) {operand : Reader Expr}
    (h : FailsBy causes operand) (rounds : List Token) :
    ∀ left, FailsBy causes (chainFrom accepted operand rounds left) := by
  induction rounds with
  | nil => exact fun left => .pure left
  | cons round rounds ih =>
    intro left
    refine .bind .current fun token => ?_
    split
    · exact .pure left
    · exact .bind .take fun _ => h.bind fun right => ih _

/-- A chain with its first operand fails in its operands only. -/
theorem chain_failsBy (accepted : List Operator) {operand : Reader Expr}
    (h : FailsBy causes operand) : FailsBy causes (chain accepted operand) :=
  h.bind fun first => .bind .rounds fun rounds => chainFrom_failsBy accepted h rounds first

/-- A sum fails as its atoms do. -/
theorem sum_failsBy {atom : Reader Expr} (h : FailsBy (expressionCauses limit) atom) :
    FailsBy (expressionCauses limit) (sum atom) :=
  chain_failsBy _ (chain_failsBy _ (factor_failsBy h))

/-- Induction on the room left for parentheses. -/
theorem expressionAt_failsBy (room : Nat) :
    FailsBy (expressionCauses limit) (expressionAt limit room) := by
  induction room with
  | zero => exact sum_failsBy (atom_failsBy none nofun)
  | succ room ih =>
    refine sum_failsBy (atom_failsBy (some (expressionAt limit room)) ?_)
    rintro expression ⟨⟩
    exact ih

end Tabletop.Reader
