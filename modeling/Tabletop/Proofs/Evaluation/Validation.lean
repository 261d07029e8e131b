/-
  **Validation agrees with evaluation.**

  1. What validation cannot read, evaluation refuses with the same message before a die is drawn.
  2. Validation finds the variables by looking for names in the expanded text, evaluation by reading
     it.  In an ASCII text a variable that is read was cut with the whole of a name that stands in
     the text, so none is read that validation did not find.  What is left to go wrong is the
     values.
-/
import Mathlib
import Tabletop.Proofs.Alias
import Tabletop.Proofs.Evaluation.Stages
import Tabletop.Proofs.Notation.Glyphs
import Tabletop.Proofs.Rolling.Recount

namespace Tabletop

open Rolling Text

/-! ## Names in a text -/

/-- A mark with a name behind it is found. -/
theorem mem_mentions {text more : List Char} (h : '@' :: more <:+ text)
    (hne : more.takeWhile isVariableChar ≠ []) :
    more.takeWhile isVariableChar ∈ mentions text := by
  induction text with
  | nil => simp at h
  | cons c rest ih =>
    rw [mentions]
    rcases List.suffix_cons_iff.mp h with heq | h
    · cases heq
      rw [if_pos ⟨rfl, hne⟩]
      exact List.mem_cons_self
    · split
      · exact List.mem_cons_of_mem _ (ih h)
      · exact ih h

/-- A small character of ASCII belongs to a name for both. -/
theorem isVariableChar_of_small {c : Char} (h : Small c) (hascii : c.toNat < 128) :
    isVariableChar c = isNameChar c := by
  have hlower := h.lower
  rw [lowerChar, if_pos hascii] at hlower
  exact forall_ascii (P := fun c => c.toLower = c → isVariableChar c = isNameChar c) (by decide)
    hascii (List.cons.inj hlower).1

theorem takeWhile_isVariableChar {text : List Char} (hsmall : ∀ c ∈ text, Small c)
    (hascii : ∀ c ∈ text, c.toNat < 128) :
    text.takeWhile isVariableChar = text.takeWhile isNameChar := by
  induction text with
  | nil => rfl
  | cons c rest ih =>
    rw [List.forall_mem_cons] at hsmall hascii
    rw [List.takeWhile_cons, List.takeWhile_cons, isVariableChar_of_small hsmall.1 hascii.1,
      ih hsmall.2 hascii.2]

/-- What is found of a name that was read: an ASCII expression mentions it. -/
theorem mem_variablesOf {expression : String} (hascii : ∀ c ∈ expression.toList, c.toNat < 128)
    {t : Token} (ht : t ∈ cutTokens (withoutAliases expression).toList) (hkind : t.kind = .named)
    (hname : t.text ≠ "@") :
    String.ofList (upper (t.text.toList.drop 1)) ∈ variablesOf (withoutAliases expression) := by
  have hsmall : ∀ c ∈ (withoutAliases expression).toList, Small c := small_of_mem_withoutAliases
  have hlow := ascii_of_mem_withoutAliases hascii
  unfold variablesOf
  generalize (withoutAliases expression).toList = text at ht hsmall hlow
  have hpiece := mem_pieces_of_mem_cutTokens ht
  rw [pieces, glyphs_of_lower (lower_of_small hsmall)] at hpiece
  obtain ⟨more, hmore, htext⟩ := name_of_mem_piecesFrom false 0 hpiece hkind
  have hsuffix : '@' :: more <:+ text := hmore.trans (List.dropWhile_suffix _)
  have hsub : ∀ c ∈ more, c ∈ text := fun c hc => hsuffix.subset (List.mem_cons_of_mem _ hc)
  have hrun : more.takeWhile isVariableChar = more.takeWhile isNameChar :=
    takeWhile_isVariableChar (fun c hc => hsmall c (hsub c hc)) fun c hc => hlow c (hsub c hc)
  have hne : more.takeWhile isVariableChar ≠ [] := by
    intro hnil
    rw [← hrun, hnil] at htext
    exact hname (String.toList_injective htext)
  rw [htext, List.drop_one, List.tail_cons, ← hrun, List.mem_eraseDups]
  exact List.mem_map_of_mem (mem_mentions hsuffix hne)

/-! ## Tables -/

/-- What has a name in bindings has a value there. -/
theorem exists_get?_of_contains {bindings : Bindings Int} {name : String}
    (h : bindings.names.contains name = true) : ∃ n, bindings.get? name = some n := by
  rw [List.contains_iff_mem] at h
  obtain ⟨entry, hentry, rfl⟩ := List.mem_map.mp h
  cases hget : bindings.get? entry.1 with
  | some n => exact ⟨n, rfl⟩
  | none => simpa using List.lookup_eq_none_iff.mp hget entry hentry

/-- Where none of the names lacks a value, each of them has one. -/
theorem exists_get?_of_firstUndefined {names : List String} {table : Bindings Int}
    (h : firstUndefined names table = none) {name : String} (hname : name ∈ names) :
    ∃ n, table.upperCased.get? name = some n := by
  have hfound := List.find?_eq_none.mp h name hname
  exact exists_get?_of_contains (by simpa using hfound)

/-! ## Validating -/

/-- What validation comes to, by what the text is read as. -/
theorem validate_outcome (settings : Settings) (table : Option (Bindings Int))
    (expression : String) :
    (validate settings table expression).1 =
      match settings.exprOf expression with
      | .error fault => .error fault
      | .ok _ =>
        match table.bind (firstUndefined (variablesOf (withoutAliases expression))) with
        | some name => .error (.expr (.undefined name))
        | none => .ok () :=
  rfl

theorem validate_none_eq_error {settings : Settings} {expression : String} {fault : Fault} :
    (validate settings none expression).1 = .error fault ↔
      settings.exprOf expression = .error fault := by
  rw [validate_outcome]
  cases settings.exprOf expression with
  | error fault' => simp
  | ok expr => simp

theorem validate_some_eq_ok {settings : Settings} {table : Bindings Int} {expression : String} :
    (validate settings (some table) expression).1 = .ok () ↔
      (∃ expr, settings.exprOf expression = .ok expr) ∧
        firstUndefined (variablesOf (withoutAliases expression)) table = none := by
  rw [validate_outcome, Option.bind_some]
  cases settings.exprOf expression with
  | error fault' => simp
  | ok expr =>
    cases firstUndefined (variablesOf (withoutAliases expression)) table with
    | some name => simp
    | none => simp

/-- Where validation with a table finds nothing wrong with an ASCII expression, every variable that
    a roll may look up has a value. -/
theorem namedAll_of_validate {settings : Settings} {table : Bindings Int} {expression : String}
    (hascii : ∀ c ∈ expression.toList, c.toNat < 128)
    (h : (validate settings (some table) expression).1 = .ok ()) :
    ∃ expr, settings.exprOf expression = .ok expr ∧
      NamedAll (fun name => ∃ n, table.upperCased.get? name = some n) expr := by
  obtain ⟨⟨expr, hexpr⟩, hdefined⟩ := validate_some_eq_ok.mp h
  refine ⟨expr, hexpr, ?_⟩
  obtain ⟨-, hderives⟩ := exprOf_eq_ok.mp hexpr
  -- The names of the expression are those of the tokens that it was read from.
  refine namedAll_of_sentence hderives.sentence fun t ht x hx => ?_
  cases hx with
  | number kind => trivial
  | named kind =>
    exact exists_get?_of_firstUndefined hdefined
      (mem_variablesOf hascii ht kind (hderives.names t ht kind))

/-! ## Agreement -/

/-- What becomes of an expression that nothing was wrong with beforehand: it is rolled, a value is
    not fit for it, an integer is too long to be written, or its source has no answer. -/
inductive Granted (source : Source) (expression : String) :
    EStateM.Result Fault Ledger Report → Prop where
  | rolled {report : Report} {after : Ledger} (sound : report.error = none) :
      Granted source expression (.ok report after)
  | hazard {hazard : Hazard} {after : Ledger}
      (noted : after.events.back? = some (.failed expression (.hazard hazard))) :
      Granted source expression (.ok (Report.failure expression hazard.message) after)
  | tooManyDigits {after : Ledger} :
      Granted source expression (.error (.defect .tooManyDigits) after)
  | dry {earlier : Array Nat} {bound : Nat} {after : Ledger}
      (none : source earlier bound = none) :
      Granted source expression (.error (.defect .noDraws) after)

/-- What is made of a roll that is excused, if no name lacks a value. -/
theorem granted_of_excused {setup : Setup} {P : String → Prop} {expression : String}
    {roll : Rolling Report} {start : Ledger} {result : EStateM.Result Fault Ledger Tally}
    (hroll : roll start = reported expression result)
    (hnames : ∀ name, P name → setup.table.get? name ≠ none)
    (hexcused : ∀ fault after, result = .error fault after → Excused setup P fault) :
    Granted setup.source expression (Rolling.orFailure expression roll start) := by
  rw [Rolling.orFailure, hroll]
  cases result with
  | ok tally after =>
    rw [reported]
    cases hreport : Report.ofTally expression tally after.used with
    | ok report => exact .rolled (of_ofTally_eq_ok hreport).2.2.2
    | error defect =>
      obtain ⟨-, rfl⟩ := ofTally_eq_error.mp hreport
      exact .tooManyDigits
  | error fault after =>
    cases hexcused fault after rfl with
    | hazard hazard =>
      by_cases hfits : hazard.numbers.all Numeral.fits = true
      · rw [reported, Fault.seen, if_pos hfits]
        exact .hazard Array.back?_push
      · rw [reported, Fault.seen, if_neg hfits]
        exact .tooManyDigits
    | dry none => exact .dry none
    | undefined passes none => exact absurd none (hnames _ passes)

/-- An expression that is not read is a failure where reading stopped. -/
theorem orFailure_error (setup : Setup) (expression : String) (e : ExprError) (start : Ledger) :
    Rolling.orFailure expression (evaluateRead setup expression (.error (.expr e))) start =
      .ok (Report.failure expression (Fault.expr e).message)
        { start with events := start.events.push (.failed expression e) } :=
  rfl

/-- **Agreement.**  If an expression cannot be read, then whatever the variables and the source are,
    its evaluation is a failure with the message that validation gives, and draws nothing.  And if
    an ASCII expression passes validation with a table, then its evaluation with this table fails
    neither because of its text nor because of a variable. -/
theorem validate_agrees (settings : Settings) (expression : String) :
    (∀ fault, (validate settings none expression).1 = .error fault →
      ∀ (table : Bindings Int) (source : Source) (depth : Nat) (before : Ledger), ∃ after,
        evaluate settings table source depth expression before =
          .ok (Report.failure expression fault.message) after ∧
            after.requests = before.requests) ∧
      ∀ table : Bindings Int, (∀ c ∈ expression.toList, c.toNat < 128) →
        (validate settings (some table) expression).1 = .ok () →
          ∀ (source : Source) (depth : Nat) (before : Ledger),
            Granted source expression (evaluate settings table source depth expression before) := by
  constructor
  · intro fault hfault table source depth before
    rw [validate_none_eq_error] at hfault
    have hexpr : ∃ e, fault = .expr e := by
      rcases (exprOf_sound settings expression).2 fault hfault with ⟨c, position, rfl⟩ | ⟨m, rfl⟩
      · exact ⟨_, rfl⟩
      · exact ⟨_, rfl⟩
    obtain ⟨e, rfl⟩ := hexpr
    -- Neither the table nor the source is looked at before the expression is read.
    rw [evaluate_stages, hfault]
    have hrequests := requests_noting before (settings.eventsOf expression)
    generalize before.noting (settings.eventsOf expression) = start at hrequests ⊢
    exact ⟨_, orFailure_error _ expression e start, hrequests⟩
  · intro table hascii hvalid source depth before
    obtain ⟨expr, hexpr, hnamed⟩ := namedAll_of_validate hascii hvalid
    rw [evaluate_stages, hexpr]
    -- Of the ways in which a roll may fail, one is closed: no name that it looks up lacks a value.
    have hensures : Ensures _ (Excused (settings.setup table source depth) _) (expr.roll _ depth) :=
      roll_recounts hnamed depth
    have hrun := evaluate_run expr (settings.setup table source depth) expression
      (before.noting (settings.eventsOf expression))
    refine granted_of_excused hrun (fun name hname => ?_)
      fun fault after hfault => hensures.fault hfault
    obtain ⟨n, hn⟩ := hname
    exact Option.ne_none_iff_exists'.mpr ⟨n, hn⟩

set_option maxRecDepth 1024 in
/-- A parenthesis that is not closed, and an alias with a variable in another letter case. -/
theorem validate_agrees_alias :
    (∃ fault, (validate {} none "(@x").1 = .error fault ∧
      ∃ after, evaluate {} [] (Source.always 1) 9 "(@x" {} =
        .ok (Report.failure "(@x" fault.message) after ∧ after.requests = #[]) ∧
      (validate {} (some [("x", 2)]) "Dis+@X").1 = .ok () ∧
        Granted (Source.always 1) "Dis+@X"
          (evaluate {} [("x", 2)] (Source.always 1) 9 "Dis+@X" {}) := by
  have hunread : (validate {} none "(@x").1 =
      .error (.expr (.misfit ⟨.expected .closeParen, ⟨.finish, "", 3⟩⟩)) := by
    cbv
  have hvalid : (validate {} (some [("x", 2)]) "Dis+@X").1 = .ok () := by
    cbv
  have hascii : ∀ c ∈ "Dis+@X".toList, c.toNat < 128 := by
    simp
  refine ⟨⟨_, hunread, ?_⟩, hvalid, ?_⟩
  · exact (validate_agrees {} "(@x").1 _ hunread [] (Source.always 1) 9 {}
  · exact (validate_agrees {} "Dis+@X").2 [("x", 2)] hascii hvalid (Source.always 1) 9 {}

end Tabletop
