/-
  What it means that a reader keeps to a relation between tokens and values.

  `Reads c D result` speaks of one run, from the cursor `c`.  If the run succeeds, the tokens that
  it took lie at the front of those unread, they stand in the relation `D` to the value, and none of
  them is too long a number or a variable without a name.  If it fails, it names one of the tokens
  ahead; there is no other way to fail.

  Both halves are kept together because the second needs the first: a reader that fails late names
  a token that an earlier one left unread.
-/
import Tabletop.Expr.Reader
import Tabletop.Proofs.Notation.Lexeme
import Tabletop.Proofs.Run

namespace Tabletop

/-! ## Cursors -/

/-- The tokens from the cursor on, with the one that is never passed. -/
def Cursor.ahead (c : Cursor) : List Token := c.unread ++ [c.last]

/-- A cursor in the tokens of a text. -/
structure Cursor.WellFormed (c : Cursor) : Prop where
  unread : ∀ t ∈ c.unread, t.WellFormed
  last : c.last.kind = .finish

theorem Cursor.current_mem_ahead (c : Cursor) : c.current ∈ c.ahead := by
  rw [Cursor.current, Cursor.ahead]
  cases c.unread with
  | nil => simp
  | cons t rest => simp

/-- Short of the end, the token at the cursor is the first one unread. -/
theorem Cursor.WellFormed.unread_eq {c : Cursor} (h : c.WellFormed)
    (hk : c.current.kind ≠ .finish) : c.unread = c.current :: c.next.unread := by
  rw [Cursor.current] at hk ⊢
  unfold Cursor.next
  cases hu : c.unread with
  | nil =>
    rw [hu] at hk
    exact absurd h.last hk
  | cons t rest => rfl

/-- Only at the end is the token at the cursor the last one. -/
theorem Cursor.WellFormed.unread_eq_nil {c : Cursor} (h : c.WellFormed)
    (hk : c.current.kind = .finish) : c.unread = [] := by
  rw [Cursor.current] at hk
  cases hu : c.unread with
  | nil => rfl
  | cons t rest =>
    rw [hu] at hk
    have ht := h.unread t (by rw [hu]; exact List.mem_cons_self)
    exact absurd hk ht.kind_ne_finish

theorem Cursor.next_last (c : Cursor) : c.next.last = c.last := by
  unfold Cursor.next
  split <;> rfl

/-- The token ahead of a well-formed cursor is well-formed, unless it is the end. -/
theorem Cursor.WellFormed.current {c : Cursor} (h : c.WellFormed)
    (hk : c.current.kind ≠ .finish) : c.current.WellFormed :=
  h.unread c.current (by rw [h.unread_eq hk]; exact List.mem_cons_self)

/-! ## Limits of single tokens -/

/-- A token that is neither too long a number nor a variable without a name. -/
structure Token.WithinLimits (t : Token) : Prop where
  number : t.kind = .number → t.text.length ≤ numberLengthLimit
  named : t.kind = .named → t.text ≠ "@"

/-- Only operands have limits. -/
theorem Token.withinLimits_of_kind {t : Token} (h : t.kind ∉ [.finish, .number, .named]) :
    t.WithinLimits :=
  ⟨fun hk => absurd (by simp [hk]) h, fun hk => absurd (by simp [hk]) h⟩

/-! ## Runs of readers -/

/-- The outcome of a run from the cursor `c`: a value that stands in the relation `D` to the tokens
    taken, or a failure because of a token ahead. -/
inductive Reads {α : Type} (c : Cursor) (D : List Token → α → Prop) :
    EStateM.Result Fault Cursor α → Prop where
  | ok {used : List Token} {a : α} {c' : Cursor} (unread : c.unread = used ++ c'.unread)
      (last : c'.last = c.last) (within : ∀ t ∈ used, t.WithinLimits) (related : D used a) :
      Reads c D (.ok a c')
  | error {cause : MisfitCause} {token : Token} {c' : Cursor} (mem : token ∈ c.ahead) :
      Reads c D (.error (.expr (.misfit ⟨cause, token⟩)) c')

namespace Reads

variable {α β : Type} {c : Cursor} {D E : List Token → α → Prop}

/-- Less may be said of what is read. -/
theorem mono {r : EStateM.Result Fault Cursor α} (h : Reads c D r)
    (hDE : ∀ used a, used <+: c.unread → D used a → E used a) : Reads c E r := by
  cases h with
  | ok unread last within related =>
    exact .ok unread last within (hDE _ _ ⟨_, unread.symm⟩ related)
  | error mem => exact .error mem

/-- Only the tokens ahead matter, not what a cursor remembers of those behind. -/
theorem congr {c₂ : Cursor} {r : EStateM.Result Fault Cursor α} (h : Reads c D r)
    (hu : c₂.unread = c.unread) (hl : c₂.last = c.last) : Reads c₂ D r := by
  cases h with
  | ok unread last within related =>
    exact .ok (hu.trans unread) (last.trans hl.symm) within related
  | error mem => exact .error (by rw [Cursor.ahead, hu, hl]; exact mem)

/-- Nothing is taken for a value that is there already. -/
theorem pure {a : α} (h : D [] a) : Reads c D ((pure a : Reader α) c) :=
  .ok rfl rfl (by simp) h

/-- Where a reader refuses nothing is said. -/
theorem refuse {cause : MisfitCause} {token : Token} (h : token ∈ c.ahead) :
    Reads c D ((Reader.refuse cause token : Reader α) c) :=
  .error h

/-- A token that is no operand is taken. -/
theorem take (hc : c.WellFormed) (hk : c.current.kind ∉ [.finish, .number, .named]) :
    Reads c (fun used t => used = [t] ∧ t = c.current) (Reader.take c) := by
  have hf : c.current.kind ≠ .finish := fun h => hk (by simp [h])
  have hu : c.unread = [c.current] ++ c.next.unread := hc.unread_eq hf
  exact .ok hu c.next_last (by simpa using Token.withinLimits_of_kind hk) ⟨rfl, rfl⟩

/-- Of two readers in a row the second goes on where the first stopped, and their tokens stand side
    by side. -/
theorem bind {E : List Token → β → Prop} {x : Reader α} {f : α → Reader β} (hc : c.WellFormed)
    (hx : Reads c D (x c))
    (hf : ∀ used a c', c.unread = used ++ c'.unread → c'.WellFormed → D used a →
      Reads c' (fun rest b => E (used ++ rest) b) (f a c')) :
    Reads c E ((x >>= f) c) := by
  generalize hr : x c = r at hx
  cases hx with
  | @ok used a c' unread last within related =>
    rw [Run.bind_of_ok hr]
    have hc' : c'.WellFormed :=
      ⟨fun t ht => hc.unread t (by rw [unread]; exact List.mem_append_right used ht),
        by rw [last]; exact hc.last⟩
    have hsecond := hf used a c' unread hc' related
    generalize f a c' = r' at hsecond
    cases hsecond with
    | ok unread' last' within' related' =>
      refine .ok (by rw [unread, unread', List.append_assoc]) (last'.trans last) ?_ related'
      intro t ht
      rcases List.mem_append.mp ht with ht | ht
      · exact within t ht
      · exact within' t ht
    | error mem =>
      refine .error ?_
      rw [Cursor.ahead, unread, List.append_assoc, ← last]
      exact List.mem_append_right used mem
  | error mem =>
    rw [Run.bind_of_error hr]
    exact .error mem

/-- A token that is no operand is taken before others. -/
theorem take_bind {E : List Token → β → Prop} {f : Token → Reader β} (hc : c.WellFormed)
    (hk : c.current.kind ∉ [.finish, .number, .named])
    (hf : ∀ c', c'.WellFormed → Reads c' (fun rest b => E (c.current :: rest) b) (f c.current c')) :
    Reads c E ((Reader.take >>= f) c) := by
  refine bind hc (take hc hk) ?_
  rintro used t c' - hc' ⟨rfl, rfl⟩
  exact hf c' hc'

theorem map {E : List Token → β → Prop} {x : Reader α} {f : α → β} (hc : c.WellFormed)
    (hx : Reads c D (x c)) (hf : ∀ used a, D used a → E used (f a)) :
    Reads c E ((f <$> x) c) := by
  rw [map_eq_pure_bind]
  refine bind hc hx fun used a c' _ _ hd => pure ?_
  simpa using hf used a hd

end Reads

end Tabletop
