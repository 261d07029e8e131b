/-
  The variables that are listed for an expression, and those that a roll of it looks up.

  1. **Names** — a name is read in the lower case of a text, and listed as it is written in either
     case.  Four letters above ASCII make a difference: caseless search takes all of them for
     letters of a name, lower case makes an ASCII letter of two of them.  Apart from them a name is
     read as it is listed.
  2. **Marks** — neither lowering nor aliases bring the mark of a variable, so every name that is
     read stands behind a mark in the text.
  3. **Covering** — so a variable that is looked up is listed, unless one of the four letters stands
     in its name.
-/
import Mathlib
import Tabletop.Proofs.Evaluation.Session
import Tabletop.Proofs.Evaluation.Validation
import Tabletop.Proofs.Notation.Divided

namespace Tabletop

open Rolling Text

/-! ## Names -/

/-- The name of the variable whose mark stands before this text, as it is read. -/
def nameRead (text : List Char) : String :=
  String.ofList (upper ((lower text).takeWhile isNameChar))

/-- The same name as it is listed. -/
def nameListed (text : List Char) : String := String.ofList (upper (text.takeWhile isVariableChar))

/-- The letters above ASCII that caseless search takes for letters of a name: the dotted capital i,
    the dotless i, the long s and the sign for kelvin. -/
def caselessLetters : List Char := [dottedI, '\u0131', '\u017f', kelvinSign]

/-- The characters of variables above ASCII are the four that fold onto ASCII letters. -/
theorem mem_caselessLetters {c : Char} (h : isVariableChar c = true) (hhigh : 128 ≤ c.toNat) :
    c ∈ caselessLetters := by
  -- Small and capital letters, digits and the underscore are ASCII.
  have hlow : ∀ {d : Char}, c ≤ d → d.toNat < 128 → False := by
    intro d hd hlt
    have hle : c.toNat ≤ d.toNat := hd
    omega
  simp only [isVariableChar, Bool.or_eq_true, Bool.and_eq_true, decide_eq_true_eq,
    List.contains_iff_mem, List.mem_cons, List.not_mem_nil, or_false] at h
  rcases h with (h | h) | h
  · exact absurd (toNat_lt_of_isNameChar h) (Nat.not_lt.mpr hhigh)
  · exact (hlow h.2 (by decide)).elim
  · simp only [caselessLetters, List.mem_cons, List.not_mem_nil, or_false]
    rcases h with h | h | h | h
    · exact Or.inl (Char.toNat_inj.mp h)
    · exact Or.inr (Or.inl (Char.toNat_inj.mp h))
    · exact Or.inr (Or.inr (Or.inl (Char.toNat_inj.mp h)))
    · exact Or.inr (Or.inr (Or.inr (Char.toNat_inj.mp h)))

/-- In upper case the dotless i and the long s are ASCII, and the other two are themselves. -/
theorem map_upperChar_caselessLetters :
    caselessLetters.map upperChar = [[dottedI], ['I'], ['S'], [kelvinSign]] := by
  decide +kernel

theorem upperChar_dottedI : upperChar dottedI = [dottedI] :=
  (List.cons.inj map_upperChar_caselessLetters).1

theorem upperChar_kelvinSign : upperChar kelvinSign = [kelvinSign] := by
  have hlast := congrArg List.getLast? map_upperChar_caselessLetters
  exact Option.some.inj hlast

theorem upperChar_ne_nil {c : Char} (h : c ∈ caselessLetters) : upperChar c ≠ [] := by
  intro hnil
  have hmem : upperChar c ∈ caselessLetters.map upperChar := List.mem_map_of_mem h
  rw [map_upperChar_caselessLetters, hnil] at hmem
  simp at hmem

/-- A name is read as it is listed just when it is written in ASCII: induction on the text. -/
theorem upper_takeWhile_lowerFrom (afterCased : Bool) (text : List Char) :
    upper ((lowerFrom afterCased text).takeWhile isNameChar) =
        upper (text.takeWhile isVariableChar) ↔
      ∀ c ∈ text.takeWhile isVariableChar, c.toNat < 128 := by
  induction text generalizing afterCased with
  | nil => simp [lowerFrom]
  | cons c rest ih =>
    rw [lowerFrom]
    generalize hhere : lowerHere afterCased c rest = here
    generalize (if isCaseIgnorable c then afterCased else isCased c) = afterCased'
    cases hhere ▸ lowering_lowerHere afterCased c rest with
    | ascii low =>
      have hname : isNameChar c.toLower = isVariableChar c :=
        forall_ascii (P := fun c => isNameChar c.toLower = isVariableChar c) (by decide) low
      have hupper : upperChar c.toLower = upperChar c :=
        forall_ascii (P := fun c => upperChar c.toLower = upperChar c) (by decide) low
      rw [List.singleton_append, List.takeWhile_cons, List.takeWhile_cons, hname]
      cases isVariableChar c with
      | true =>
        rw [if_pos rfl, if_pos rfl, List.forall_mem_cons, ← ih afterCased', upper, upper,
          List.flatMap_cons, List.flatMap_cons, hupper, List.append_cancel_left_eq]
        exact ⟨fun h => ⟨low, h⟩, fun h => h.2⟩
      | false => simp
    | kelvin sign =>
      subst sign
      rw [List.singleton_append, List.takeWhile_cons_of_pos (by decide),
        List.takeWhile_cons_of_pos (by decide), upper, upper, List.flatMap_cons, List.flatMap_cons,
        upperChar_kelvinSign]
      refine iff_of_false (fun hsame => ?_) fun h => absurd (h _ List.mem_cons_self) (by decide)
      exact absurd (List.cons.inj hsame).1 (by decide)
    | dotted letter =>
      subst letter
      rw [List.cons_append, List.takeWhile_cons_of_pos (by decide),
        List.takeWhile_cons_of_pos (by decide), upper, upper, List.flatMap_cons, List.flatMap_cons,
        upperChar_dottedI]
      refine iff_of_false (fun hsame => ?_) fun h => absurd (h _ List.mem_cons_self) (by decide)
      exact absurd (List.cons.inj hsame).1 (by decide)
    | @above d high ne above blank =>
      -- What is read stops here.
      have hstop : isNameChar d = false := by
        refine Bool.eq_false_iff.mpr fun hname => ?_
        exact absurd (toNat_lt_of_isNameChar hname) (Nat.not_lt.mpr above)
      rw [List.singleton_append, List.takeWhile_cons_of_neg (by simp [hstop])]
      cases hc : isVariableChar c with
      | true =>
        rw [List.takeWhile_cons_of_pos hc, upper, upper, List.flatMap_cons, List.flatMap_nil]
        refine iff_of_false (fun hsame => ?_) fun h =>
          absurd (h _ List.mem_cons_self) (Nat.not_lt.mpr high)
        have hnil := (List.append_eq_nil_iff.mp hsame.symm).1
        exact upperChar_ne_nil (mem_caselessLetters hc high) hnil
      | false =>
        rw [List.takeWhile_cons_of_neg (by simp [hc])]
        simp

/-- A name is listed as it is read just if it is written in ASCII. -/
theorem nameRead_eq_nameListed {text : List Char} :
    nameRead text = nameListed text ↔ ∀ c ∈ text.takeWhile isVariableChar, c.toNat < 128 := by
  rw [← upper_takeWhile_lowerFrom false, nameRead, nameListed, ← lower]
  exact String.ofList_inj

/-! ## Marks -/

/-- Every variable that is cut from an expression stands behind a mark in it. -/
theorem mark_of_mem_cutTokens {expression : String} {t : Token}
    (ht : t ∈ cutTokens (withoutAliases expression).toList) (hkind : t.kind = .named) :
    ∃ left right, expression.toList = left ++ '@' :: right ∧
      t.text.toList = '@' :: (lower right).takeWhile isNameChar := by
  have hpiece := mem_pieces_of_mem_cutTokens ht
  rw [pieces_withoutAliases, piecesOf] at hpiece
  obtain ⟨expanded, hexpanded, htext⟩ := name_of_mem_piecesFrom false 0 hpiece hkind
  obtain ⟨lowered, hlowered, hname⟩ := mark_of_expandAll hexpanded
  obtain ⟨left, right, hsplit, rfl⟩ := of_mark_suffix_lowerFrom false hlowered
  exact ⟨left, right, hsplit, htext.trans (congrArg _ hname)⟩

/-! ## Covering -/

/-- The name is read behind a mark in the text with one of the four letters in it, and listed
    otherwise. -/
def ReadOtherwise (text : List Char) (name : String) : Prop :=
  ∃ left right, text = left ++ '@' :: right ∧ name = nameRead right ∧ name ≠ nameListed right ∧
    ∃ c ∈ right.takeWhile isVariableChar, c ∈ caselessLetters

/-- A name that is read is listed, if it is not read otherwise. -/
theorem covered_of_mem_cutTokens {expression : String} {t : Token}
    (ht : t ∈ cutTokens (withoutAliases expression).toList) (hkind : t.kind = .named)
    (hname : t.text ≠ "@") :
    String.ofList (upper (t.text.toList.drop 1)) ∈ variablesOf expression ∨
      ReadOtherwise expression.toList (String.ofList (upper (t.text.toList.drop 1))) := by
  obtain ⟨left, right, hsplit, htext⟩ := mark_of_mem_cutTokens ht hkind
  have hread : String.ofList (upper (t.text.toList.drop 1)) = nameRead right := by
    rw [htext]
    rfl
  rw [hread]
  by_cases hascii : ∀ c ∈ right.takeWhile isVariableChar, c.toNat < 128
  · left
    have hsame := nameRead_eq_nameListed.mpr hascii
    -- A bare mark lists nothing, but it is not read as a name, either.
    have hne : right.takeWhile isVariableChar ≠ [] := by
      intro hnil
      cases hrun : (lower right).takeWhile isNameChar with
      | nil =>
        rw [hrun] at htext
        exact hname (String.toList_injective htext)
      | cons c run =>
        have hc : isNameChar c = true :=
          List.all_eq_true.mp List.all_takeWhile c (hrun ▸ List.mem_cons_self)
        obtain ⟨d, hd, -⟩ := upperChar_of_ascii (toNat_lt_of_isNameChar hc)
        have hupper := (upper_takeWhile_lowerFrom false right).mpr hascii
        rw [← lower, hrun, hnil, upper, upper, List.flatMap_cons, hd] at hupper
        cases hupper
    rw [hsame, nameListed, variablesOf, List.mem_eraseDups]
    exact List.mem_map_of_mem (mem_mentions ⟨left, hsplit.symm⟩ hne)
  · right
    obtain ⟨c, hc, hhigh⟩ : ∃ c ∈ right.takeWhile isVariableChar, 128 ≤ c.toNat := by
      simpa using hascii
    refine ⟨left, right, hsplit, rfl, fun hsame => ?_, c, hc, ?_⟩
    · exact hascii (nameRead_eq_nameListed.mp hsame)
    · exact mem_caselessLetters (List.all_eq_true.mp List.all_takeWhile c hc) hhigh

/-- **Covering.**  Where an evaluation goes well, each variable that it looked up is listed for the
    expression, unless one of four letters above ASCII stands in its name: then it may be listed by
    another name than it was looked up by. -/
theorem evaluate_covered {settings : Settings} {table : Bindings Int} {source : Source}
    {depth : Nat} {expression : String} {before after : Ledger} {report : Report}
    (h : evaluate settings table source depth expression before = .ok report after)
    (hok : report.error = none) :
    ∀ name ∈ report.used.names,
      name ∈ variablesOf expression ∨ ReadOtherwise expression.toList name := by
  obtain ⟨expr, start, tally, hexpr, hused, -, hroll, -, rfl⟩ := roll_of_evaluate h hok
  obtain ⟨-, hderives⟩ := exprOf_eq_ok.mp hexpr
  have hnamed : NamedAll (fun name => name ∈ variablesOf expression ∨
      ReadOtherwise expression.toList name) expr := by
    refine namedAll_of_sentence hderives.sentence fun t ht x hx => ?_
    cases hx with
    | number kind => trivial
    | named kind => exact covered_of_mem_cutTokens ht kind (hderives.names t ht kind)
  have hconsulted := roll_consults expr depth _ _ _ hroll
  rw [hused] at hconsulted
  intro name hname
  refine consulted_of_namedAll hnamed name ?_
  have hlists := listsConsulted_of_consulted hconsulted
  rw [← List.mem_eraseDups, ← hlists.names]
  exact hname

set_option maxRecDepth 2048 in
/-- A name with the sign for kelvin is looked up by one name and listed by another, while the name
    beside it is listed as it is looked up. -/
theorem evaluate_covered_kelvin :
    ∃ expression report after, expression = "@\u212aey+@Str" ∧
      evaluate {} [("key", 1), ("str", 2)] (Source.always 1) 9 expression {} = .ok report after ∧
      report.error = none ∧ report.used = [("KEY", 1), ("STR", 2)] ∧
      variablesOf expression = ["\u212aEY", "STR"] ∧
      ∀ name ∈ report.used.names,
        name ∈ variablesOf expression ∨ ReadOtherwise expression.toList name := by
  generalize hexpression : "@\u212aey+@Str" = expression
  have hexpr : Settings.exprOf {} expression =
      .ok (.binary .add (.named "KEY") (.named "STR")) := by
    rw [← hexpression]
    cbv
  have hlisted : variablesOf expression = ["\u212aEY", "STR"] := by
    rw [← hexpression]
    cbv
  obtain ⟨start, hused, -, hevaluate⟩ :=
    evaluate_of_exprOf hexpr [("key", 1), ("str", 2)] (Source.always 1) 9 {}
  have hroll : (Expr.binary .add (.named "KEY") (.named "STR")).roll
      (Settings.setup {} [("key", 1), ("str", 2)] (Source.always 1) 9) 9 start =
        .ok { value := 3 } { start with used := [("KEY", 1), ("STR", 2)] } := by
    obtain ⟨requests, used, events⟩ := start
    obtain rfl : used = [] := hused
    cbv
  have hshort : ∀ n ∈ ({ value := 3 } : Tally).figures, n.natAbs < Nat.pow 10 1 := by decide
  obtain ⟨report, hreport⟩ :=
    exists_report hshort (by decide) expression [("KEY", 1), ("STR", 2)]
  obtain ⟨-, hreported, -, hok⟩ := of_ofTally_eq_ok hreport
  have h : evaluate {} [("key", 1), ("str", 2)] (Source.always 1) 9 expression {} =
      .ok report { start with used := [("KEY", 1), ("STR", 2)] } := by
    rw [hevaluate _ hroll]
    refine (orFailure_eq_ok hok).mpr ?_
    rw [reported, hreport]
  exact ⟨expression, report, _, rfl, h, hok, hreported, hlisted, evaluate_covered h hok⟩

end Tabletop
