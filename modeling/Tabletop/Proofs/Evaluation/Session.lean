/-
  **Sessions**: expressions that are evaluated one after the other with one setup, and the variables
  that their reports list.

  Draws go on from one evaluation to the next, but each starts with no variable looked up, even
  after one that failed midway.  So the variables of a report hang on its own expression and on the
  table alone: their names are those that a roll of the expression consults, each where it comes
  first, and the value of a name is that of the last entry of the table that has it.
-/
import Mathlib
import Tabletop.Proofs.Evaluation.Stages
import Tabletop.Proofs.Rolling.Consulting

namespace Tabletop

open Rolling

/-- What expressions with their texts come to one after the other: each evaluation starts where the
    one before ended, well or not. -/
def Setup.session (setup : Setup) : List (Expr × String) → Ledger → List (Except Fault Report)
  | [], _ => []
  | (expr, text) :: rest, before =>
    match expr.evaluate setup text before with
    | .ok report after => .ok report :: setup.session rest after
    | .error fault after => .error fault :: setup.session rest after

/-- The bindings are the variables that a roll of the expression consults. -/
structure ListsConsulted (table : Bindings Int) (expr : Expr) (used : Bindings Int) : Prop where
  names : used.names = expr.consulted.eraseDups
  value : ∀ entry ∈ used, table.last? entry.1 = some entry.2

/-- Bindings made of nothing by consulting names are these names, each once, with their values. -/
theorem listsConsulted_of_consulted {table used : Bindings Int} {expr : Expr}
    (h : Consulted table.upperCased expr.consulted [] used) : ListsConsulted table expr used := by
  obtain ⟨pairs, hnames, hagree, rfl⟩ := h
  refine ⟨?_, fun entry hentry => ?_⟩
  · rw [Bindings.names_bindAll, hnames]
  · rcases Bindings.mem_bindAll hentry with hentry | hentry
    · rw [← Bindings.get?_upperCased]
      exact hagree entry hentry
    · cases hentry

/-- One evaluation lists what its own expression consults, whatever was looked up before it. -/
theorem listsConsulted_of_evaluate {source : Source} {limits : Limits} {table : Bindings Int}
    {depth : Nat} {expr : Expr} {text : String} {before after : Ledger} {report : Report}
    (h : expr.evaluate ⟨source, limits, table.upperCased, depth⟩ text before = .ok report after) :
    ListsConsulted table expr report.used := by
  obtain ⟨tally, hroll, hreport⟩ := evaluate_eq_ok.mp h
  obtain ⟨-, hused, -⟩ := of_ofTally_eq_ok hreport
  rw [hused]
  exact listsConsulted_of_consulted (roll_consults expr depth _ _ _ hroll)

/-- **Variables of a session.**  Let expressions be evaluated one after the other with one setup,
    some of them perhaps failing midway.  Then each report lists just the variables that its own
    expression consults, in the order in which they come first, each with the value of the last
    entry of the table that has its name, letter case aside. -/
theorem session_lists_consulted (source : Source) (limits : Limits) (table : Bindings Int)
    (depth : Nat) (calls : List (Expr × String)) (before : Ledger) :
    List.Forall₂
      (fun call outcome => ∀ report, outcome = .ok report →
        ListsConsulted table call.1 report.used)
      calls (Setup.session ⟨source, limits, table.upperCased, depth⟩ calls before) := by
  induction calls generalizing before with
  | nil => exact .nil
  | cons call rest ih =>
    obtain ⟨expr, text⟩ := call
    rw [Setup.session]
    cases hrun : expr.evaluate ⟨source, limits, table.upperCased, depth⟩ text before with
    | ok report after =>
      refine .cons ?_ (ih after)
      rintro _ ⟨⟩
      exact listsConsulted_of_evaluate hrun
    | error fault after => exact .cons (fun _ => nofun) (ih after)

/-- Three expressions under one table, the second of which fails after it has looked up a variable:
    the third one lists its own variables only, that of the reroll before that of the check. -/
theorem session_lists_consulted_failing :
    ∃ (table : Bindings Int) (calls : List (Expr × String)) (first third : Report),
      table = [("x", 1), ("b", 4), ("X", 2)] ∧
      calls = [(.binary .add (.named "B") (.named "X"), "@b+@x"),
        (.binary .add (.dice (.number 1) (.faces (.named "B")) []) (.named "Y"), "d@b+@y"),
        (.dice (.number 2) (.faces (.number 6))
          [.successCheck ⟨.ge, .named "B"⟩, .reroll ⟨.once, .le, .named "X"⟩], "2d6>=@b r@x")] ∧
      Setup.session ⟨Source.cycle #[3, 1, 5, 6], {}, table.upperCased, 9⟩ calls {} =
        [.ok first, .error (.expr (.undefined "Y")), .ok third] ∧
      first.used = [("B", 4), ("X", 2)] ∧ third.used = [("X", 2), ("B", 4)] ∧
      List.Forall₂
        (fun call outcome => ∀ report, outcome = .ok report →
          ListsConsulted table call.1 report.used)
        calls (Setup.session ⟨Source.cycle #[3, 1, 5, 6], {}, table.upperCased, 9⟩ calls {}) := by
  generalize htable : [("x", (1 : Int)), ("b", 4), ("X", 2)] = table
  have hupper : Bindings.upperCased table = [("X", 2), ("B", 4)] := by
    rw [← htable]
    cbv
  generalize hsetup :
    Setup.mk (Source.cycle #[3, 1, 5, 6]) {} [("X", 2), ("B", 4)] 9 = setup
  -- What each of the expressions comes to, from where the one before ended.
  obtain ⟨t₁, l₁, h₁, hshort₁, hused₁, hreq₁⟩ : ∃ tally after,
      (Expr.binary .add (.named "B") (.named "X")).roll setup setup.depth {} = .ok tally after ∧
      (∀ n ∈ tally.figures, n.natAbs < Nat.pow 10 1) ∧ after.used = [("B", 4), ("X", 2)] ∧
        { after with used := [] } = ({} : Ledger) := by
    rw [← hsetup]
    exact ⟨{ value := 6 }, { used := [("B", 4), ("X", 2)] }, by cbv, by decide, rfl, rfl⟩
  obtain ⟨l₂, h₂, hreq₂⟩ : ∃ after,
      (Expr.binary .add (.dice (.number 1) (.faces (.named "B")) []) (.named "Y")).roll setup
        setup.depth {} = .error (.expr (.undefined "Y")) after ∧
      { after with used := [] } =
        ({ requests := #[4], events := #[.resolved 1 (.faces 4) 0 [3] 3] } : Ledger) := by
    rw [← hsetup]
    exact ⟨{ requests := #[4], used := [("B", 4)], events := #[.resolved 1 (.faces 4) 0 [3] 3] },
      by cbv, rfl⟩
  obtain ⟨t₃, l₃, h₃, hshort₃, hused₃⟩ : ∃ tally after,
      (Expr.dice (.number 2) (.faces (.number 6))
        [.successCheck ⟨.ge, .named "B"⟩, .reroll ⟨.once, .le, .named "X"⟩]).roll setup setup.depth
          { requests := #[4], events := #[.resolved 1 (.faces 4) 0 [3] 3] } = .ok tally after ∧
      (∀ n ∈ tally.figures, n.natAbs < Nat.pow 10 1) ∧ after.used = [("X", 2), ("B", 4)] := by
    rw [← hsetup]
    exact ⟨
      { value := 2
        dice := [{ sides := .faces 6, face := 1, rerolled := true },
          { sides := .faces 6, face := 5, success := true },
          { sides := .faces 6, face := 6, success := true }]
        successes := some 2 },
      { requests := #[4, 6, 6, 6]
        used := [("X", 2), ("B", 4)]
        events := #[.resolved 1 (.faces 4) 0 [3] 3, .resolved 2 (.faces 6) 2 [1, 5, 6] 2] },
      by cbv, by decide, rfl⟩
  obtain ⟨r₁, hr₁⟩ := exists_report hshort₁ (by decide) "@b+@x" l₁.used
  obtain ⟨r₃, hr₃⟩ := exists_report hshort₃ (by decide) "2d6>=@b r@x" l₃.used
  refine ⟨table, _, r₁, r₃, rfl, rfl, ?_, ?_, ?_,
    session_lists_consulted (Source.cycle #[3, 1, 5, 6]) {} table 9 _ {}⟩
  · have he₁ : (Expr.binary .add (.named "B") (.named "X")).evaluate setup "@b+@x" {} =
        .ok r₁ l₁ := evaluate_eq_ok.mpr ⟨t₁, h₁, hr₁⟩
    have he₂ : (Expr.binary .add (.dice (.number 1) (.faces (.named "B")) []) (.named "Y")).evaluate
        setup "d@b+@y" l₁ = .error (.expr (.undefined "Y")) l₂ := by
      rw [evaluate_run, hreq₁, h₂]
      rfl
    have he₃ : (Expr.dice (.number 2) (.faces (.number 6))
        [.successCheck ⟨.ge, .named "B"⟩, .reroll ⟨.once, .le, .named "X"⟩]).evaluate setup
          "2d6>=@b r@x" l₂ = .ok r₃ l₃ := by
      refine evaluate_eq_ok.mpr ⟨t₃, ?_, hr₃⟩
      rw [hreq₂, h₃]
    rw [hupper, hsetup]
    simp only [Setup.session, he₁, he₂, he₃]
  · rw [← hused₁]
    exact (of_ofTally_eq_ok hr₁).2.1
  · rw [← hused₃]
    exact (of_ofTally_eq_ok hr₃).2.1

end Tabletop
