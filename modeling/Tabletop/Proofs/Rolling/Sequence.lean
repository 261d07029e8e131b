/-
  Rolls in a row: what two expressions come to one after the other, an operator between them comes
  to.

  1. **Room** — an operator leaves its sides room for one less.  A roll that went well goes the same
     way with less room, or there is not enough of it.
  2. **Surroundings** — of the ledger that it starts from a roll looks at the requests only, and it
     adds to the variables noted there what it looks up.
-/
import Tabletop.Proofs.Rolling.Record

namespace Tabletop.Rolling

variable {setup : Setup}

/-! ## Room -/

/-- The roll ends because there is no room left. -/
def TooLong (result : EStateM.Result Fault Ledger Tally) : Prop :=
  ∃ after, result = .error (.expr (.hazard .tooLong)) after

theorem tooLong_bind {roll : Rolling Tally} {next : Tally → Rolling Tally}
    {before : Ledger} (h : TooLong (roll before)) : TooLong ((roll >>= next) before) := by
  obtain ⟨after, hroll⟩ := h
  exact ⟨after, Run.bind_of_error hroll⟩

/-- Induction on the expression: where a term is rolled room makes no difference, and an operator or
    a target check is too long if one of its parts is. -/
theorem roll_of_less_room {expr : Expr} :
    ∀ {room : Nat} {before after : Ledger} {tally : Tally},
      expr.roll setup (room + 1) before = .ok tally after →
        expr.roll setup room before = .ok tally after ∨ TooLong (expr.roll setup room before) := by
  induction expr with
  | binary op left right ihl ihr =>
    intro room before after tally h
    cases room with
    | zero => exact Or.inr ⟨_, rfl⟩
    | succ room =>
      rw [roll_binary] at h ⊢
      obtain ⟨l, mid, hl, hrest⟩ := Run.bind_eq_ok.mp h
      obtain ⟨r, last, hr, hvalue⟩ := Run.bind_eq_ok.mp hrest
      rcases ihl hl with hl | hl
      · rw [Run.bind_of_ok hl]
        rcases ihr hr with hr | hr
        · rw [Run.bind_of_ok hr]
          exact Or.inl hvalue
        · exact Or.inr (tooLong_bind hr)
      · exact Or.inr (tooLong_bind hl)
  | target inner comparison threshold ih =>
    intro room before after tally h
    cases room with
    | zero => exact Or.inr ⟨_, rfl⟩
    | succ room =>
      obtain ⟨t, mid, ht, hrest⟩ := Run.bind_eq_ok.mp h
      rcases ih ht with ht | ht
      · exact Or.inl (Run.bind_eq_ok.mpr ⟨t, mid, ht, hrest⟩)
      · exact Or.inr (tooLong_bind ht)
  | _ => exact fun h => Or.inl h

/-! ## Surroundings -/

/-- A roll that starts from other surroundings after the same requests. -/
theorem roll_elsewhere {expr : Expr} {room : Nat} {before after start : Ledger} {tally : Tally}
    (h : expr.roll setup room before = .ok tally after)
    (hrequests : start.requests = before.requests) :
    ∃ (after' : Ledger) (pairs : List (String × Int)),
      expr.roll setup room start = .ok tally after' ∧ after'.requests = after.requests ∧
        Bindings.Agree setup.table.get? pairs ∧ after.used = before.used.bindAll pairs ∧
          after'.used = start.used.bindAll pairs := by
  obtain ⟨steps, hgiven, -, -, rfl, hagain⟩ :=
    (roll_traced (namedAll_of_roll_eq_ok _ _ _ _ h) room).of_eq_ok h
  have hgiven' : Given setup start steps := by
    rw [given_iff] at hgiven ⊢
    rwa [hrequests]
  refine ⟨_, lookups steps, hagain setup start rfl hgiven', ?_, ((given_iff _ _ _).mp hgiven).2,
    used_after _ _, used_after _ _⟩
  rw [requests_after, requests_after, hrequests]

/-! ## Operators -/

/-- What is made of the values of two sides. -/
def combined (op : Operator) (l r : Tally) (after : Ledger) : EStateM.Result Fault Ledger Tally :=
  match op.apply l.value r.value with
  | .ok value => .ok (l.combine value r) after
  | .error hazard => .error (.expr (.hazard hazard)) after

/-- Two expressions that were rolled one after the other, each with no variable noted before: an
    operator between them combines what they came to, after the same requests and with the variables
    of both, or it is too long. -/
theorem roll_binary_of_rolls {op : Operator} {left right : Expr} {room : Nat}
    {before mid between last start : Ledger} {l r : Tally}
    (hl : left.roll setup room before = .ok l mid)
    (hr : right.roll setup room between = .ok r last) (hbefore : before.used = [])
    (hbetween : between.used = []) (hstart : start.used = [])
    (hfirst : start.requests = before.requests) (hsecond : between.requests = mid.requests) :
    TooLong ((Expr.binary op left right).roll setup room start) ∨
      ∃ after, after.requests = last.requests ∧ after.used = mid.used.union last.used ∧
        (Expr.binary op left right).roll setup room start = combined op l r after := by
  cases room with
  | zero => exact Or.inl ⟨_, rfl⟩
  | succ room =>
    obtain ⟨mid', ps, hl', hmid, hps, hused, hused'⟩ := roll_elsewhere hl hfirst
    obtain ⟨last', qs, hr', hlast, hqs, hlater, hlater'⟩ :=
      roll_elsewhere hr (hmid.trans hsecond.symm)
    rw [roll_binary]
    rcases roll_of_less_room hl' with hl' | hl'
    · rcases roll_of_less_room hr' with hr' | hr'
      · refine Or.inr ⟨last', hlast, ?_, ?_⟩
        · have hagree : Bindings.Agree setup.table.get? mid.used := by
            rw [hused, hbefore]
            exact Bindings.Agree.bindAll (fun e he => by cases he) hps
          have hsame : mid'.used = mid.used := by rw [hused, hused', hbefore, hstart]
          rw [hlater', hsame, Bindings.bindAll_eq_union hagree hqs, hlater, hbetween]
        · rw [Run.bind_of_ok hl', Run.bind_of_ok hr', combined]
          cases op.apply l.value r.value <;> rfl
      · rw [Run.bind_of_ok hl']
        exact Or.inl (tooLong_bind hr')
    · exact Or.inl (tooLong_bind hl')

end Tabletop.Rolling
