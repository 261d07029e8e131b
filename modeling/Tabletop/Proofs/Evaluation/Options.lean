/-
  Variables from the command line: what an option assigns to a name, a roll of the name comes to.

  1. **Options** — an assignment is written as an option and read back as the binding of its name in
     upper case, so the table of all options is that of the names in any letter case.
  2. **Names** — no alias stands behind a mark, and behind a mark no letter begins anything but a
     name.  So a marked name is read as that variable, be it `adv`, `d20` or `dh`.
  3. **Rolls** — a variable has the value that was assigned to its name last.
-/
import Mathlib
import Tabletop.Proofs.Bindings
import Tabletop.Proofs.Evaluation.Composition
import Tabletop.Proofs.Notation.Blanks
import Tabletop.Proofs.Notation.Cuts
import Tabletop.Proofs.Notation.Divided
import Tabletop.Proofs.Text.Expanded

namespace Tabletop

open Text Alias Grammar

/-! ## Options -/

/-- A value for a name, the name marked or not. -/
structure Assignment where
  marked : Bool
  name : String
  value : Int
  nonempty : name ≠ ""
  letters : ∀ c ∈ name.toList, isNameLetter c = true
  fits : Numeral.fits value = true

namespace Assignment

/-- An assignment as an option. -/
def text (a : Assignment) : String :=
  (if a.marked then "@" else "") ++ a.name ++ "=" ++ Numeral.decimal a.value

/-- An assignment as a binding. -/
def binding (a : Assignment) : String × Int := (a.name, a.value)

end Assignment

/-- The characters of names are ASCII, and neither blanks nor the mark or the sign beside a name. -/
theorem of_isNameLetter {c : Char} (h : isNameLetter c = true) :
    c.toNat < 128 ∧ isBlank c = false ∧ c ≠ '@' ∧ c ≠ '=' := by
  have hlow : c.toNat < 128 := by
    rw [isNameLetter, Bool.or_eq_true, beq_iff_eq] at h
    rcases h with h | rfl
    · simp only [Char.isAlphanum, Char.isAlpha, Char.isUpper, Char.isLower, Char.isDigit,
        Bool.or_eq_true, Bool.and_eq_true, decide_eq_true_eq, ge_iff_le,
        UInt32.le_iff_toNat_le] at h
      change ((65 ≤ c.toNat ∧ c.toNat ≤ 90) ∨ (97 ≤ c.toNat ∧ c.toNat ≤ 122)) ∨
        (48 ≤ c.toNat ∧ c.toNat ≤ 57) at h
      omega
    · decide
  exact ⟨hlow, forall_ascii (P := fun c => isNameLetter c = true →
    isBlank c = false ∧ c ≠ '@' ∧ c ≠ '=') (by decide) hlow h⟩

/-- A text without blanks at its ends is left as it is. -/
theorem trim_of_not_blank {cs : List Char} (h : ∀ c ∈ cs, isBlank c = false) : trim cs = cs := by
  have hleft : ∀ ds : List Char, (∀ d ∈ ds, isBlank d = false) → trimLeft ds = ds := by
    intro ds hds
    cases ds with
    | nil => rfl
    | cons d ds => exact List.dropWhile_cons_of_neg (by simp [hds d List.mem_cons_self])
  rw [trim, hleft cs h, hleft cs.reverse (by simpa using h), List.reverse_reverse]

theorem splitOption_append {name : List Char} (h : '=' ∉ name) (value : List Char) :
    splitOption (name ++ '=' :: value) = (name, some value) := by
  have hname : ∀ c ∈ name, (c != '=') = true := fun c hc => bne_iff_ne.mpr fun heq => h (heq ▸ hc)
  rw [splitOption, List.dropWhile_append_of_pos hname, List.takeWhile_append_of_pos hname,
    List.dropWhile_cons_of_neg (by decide), List.takeWhile_cons_of_neg (by decide),
    List.append_nil]

namespace Assignment

variable (a : Assignment)

theorem toList_ne_nil : a.name.toList ≠ [] := fun h =>
  a.nonempty (String.toList_injective h)

theorem inUpperCase : InUpperCase (uppered a.name) := by
  have hupper := upper_upper fun c hc => (of_isNameLetter (a.letters c hc)).1
  rw [InUpperCase, uppered, uppered, String.toList_ofList, hupper]

/-- An option is read back, its name in upper case. -/
theorem bindingOf_text : bindingOf a.text = .ok (uppered a.name, a.value) := by
  have hmarks : ∀ c ∈ (if a.marked then "@" else "").toList, c = '@' := by
    cases a.marked <;> simp
  have hchars : ∀ c ∈ (if a.marked then "@" else "").toList ++ a.name.toList,
      isBlank c = false ∧ c ≠ '=' := by
    intro c hc
    rcases List.mem_append.mp hc with hc | hc
    · rw [hmarks c hc]
      decide
    · exact ⟨(of_isNameLetter (a.letters c hc)).2.1, (of_isNameLetter (a.letters c hc)).2.2.2⟩
  have htext : a.text.toList = ((if a.marked then "@" else "").toList ++ a.name.toList) ++
      '=' :: (Numeral.decimal a.value).toList := by
    simp [text]
  have hvalue : ∀ c ∈ (Numeral.decimal a.value).toList, isBlank c = false := by
    intro c hc
    rcases Numeral.eq_or_isDigit_of_mem_decimal hc with rfl | hdigit
    · decide
    · exact isBlank_of_isNameChar (by simp [isNameChar, hdigit])
  have hmark : ∀ c ∈ a.name.toList, (c == '@') = false := fun c hc =>
    beq_false_of_ne (of_isNameLetter (a.letters c hc)).2.2.1
  rw [bindingOf, htext, splitOption_append fun heq => (hchars _ heq).2 rfl]
  dsimp only
  rw [trim_of_not_blank fun c hc => (hchars c hc).1, trim_of_not_blank hvalue,
    Numeral.read?_decimal a.fits,
    List.dropWhile_append_of_pos fun c hc => beq_iff_eq.mpr (hmarks c hc)]
  obtain ⟨first, more, hname⟩ := List.exists_cons_of_ne_nil a.toList_ne_nil
  have hfirst := hmark first (by rw [hname]; exact List.mem_cons_self)
  rw [hname, List.dropWhile_cons_of_neg (by simp [hfirst])]
  dsimp only
  rw [← hname, uppered]

end Assignment

/-- Assignments on top of a table bind their names in upper case, one after the other. -/
theorem extendTable_text (table : Bindings Int) (assignments : List Assignment) :
    extendTable table (assignments.map Assignment.text) =
      .ok (table.bindAll (assignments.map fun a => (uppered a.name, a.value))) := by
  induction assignments generalizing table with
  | nil => rfl
  | cons a assignments ih =>
    rw [List.map_cons, extendTable, a.bindingOf_text]
    exact ih _

theorem tableOfOptions_text (assignments : List Assignment) :
    tableOfOptions (assignments.map Assignment.text) =
      .ok (Bindings.upperCased (assignments.map Assignment.binding)) := by
  rw [tableOfOptions, extendTable_text, Bindings.upperCased, List.map_map]
  rfl

/-! ## Names -/

/-- No alias stands in a marked name. -/
theorem not_stands_mark {name : List Char} (h : ∀ c ∈ name, isWordChar c = true)
    (extreme : Extreme) : ¬ Stands extreme false ('@' :: name) := by
  have hfirst : (keeping extreme false).first ≠ '@' := by cases extreme <;> decide
  intro hstands
  generalize hmark : '@' = mark at hstands
  cases hstands with
  | here => exact hfirst hmark.symm
  | later further =>
    subst hmark
    rw [← List.append_nil name, beq_self_eq_true, Bool.or_true, stands_true_append h] at further
    cases further

/-- A marked name is one piece. -/
theorem pieces_mark {name : String} (h : ∀ c ∈ name.toList, isNameLetter c = true) :
    ∃ t : Token, t.kind = .named ∧ t.text.toList = '@' :: name.toList.map Char.toLower ∧
      pieces (withoutAliases ("@" ++ name)).toList = [.token t] := by
  have hascii : ∀ c ∈ name.toList, c.toNat < 128 := fun c hc => (of_isNameLetter (h c hc)).1
  have hlower : lower ("@" ++ name).toList = '@' :: name.toList.map Char.toLower := by
    rw [String.toList_append, lower_of_ascii]
    · simp
    · simpa using hascii
  have hname : ∀ c ∈ name.toList.map Char.toLower, isNameChar c = true := by
    intro c hc
    obtain ⟨d, hd, rfl⟩ := List.mem_map.mp hc
    rw [isNameChar_toLower (hascii d hd), h d hd]
  rw [pieces_withoutAliases, piecesOf, hlower]
  generalize name.toList.map Char.toLower = cs at hname
  have hnone := not_stands_mark fun c hc => isWordChar_of_isNameChar (hname c hc)
  have hglyphs : glyphsFrom false ('@' :: cs) = ⟨'@', false⟩ :: (cs.map (⟨·, false⟩) ++ []) := by
    have hword := glyphsFrom_word (fun c hc => isBlank_of_isNameChar (hname c hc)) []
    rw [List.append_nil] at hword
    rw [glyphsFrom_of_not_blank (by decide), hword]
    rfl
  rw [expandAll_of_not_stands hnone, hglyphs, piecesFrom_word (lexeme?_name hname rfl), piecesFrom]
  exact ⟨_, rfl, String.toList_ofList, rfl⟩

/-- A marked name is read as that variable, whatever the settings are. -/
theorem exprOf_mark {name : String} (hne : name ≠ "")
    (h : ∀ c ∈ name.toList, isNameLetter c = true) (settings : Settings) :
    settings.exprOf ("@" ++ name) = .ok (.named (uppered name)) := by
  obtain ⟨t, hkind, htext, hpieces⟩ := pieces_mark h
  have hcut : cutTokens (withoutAliases ("@" ++ name)).toList = [t] := by
    rw [cutTokens, hpieces]
    rfl
  have hoperand : IsOperand t (.named (uppered name)) := by
    have hupper : upper (name.toList.map Char.toLower) = upper name.toList :=
      upper_map_toLower fun c hc => (of_isNameLetter (h c hc)).1
    have hnamed := IsOperand.named hkind
    rwa [htext, List.drop_one, List.tail_cons, hupper] at hnamed
  have hmark : t.text ≠ "@" := by
    intro hbare
    rw [hbare] at htext
    exact hne (String.toList_injective (List.map_eq_nil_iff.mp (List.cons.inj htext).2.symm))
  refine exprOf_eq_ok.mpr ⟨fun _ => by rw [strays, hpieces]; rfl, ?_⟩
  rw [hcut]
  refine ⟨.plain (.ofProduct (.ofFactor (.named hoperand))), ?_, ?_, ?_⟩
  · simp [hkind]
  · simpa using fun _ => hmark
  · exact nestsWithin_of_plain (by simp [Plain, hkind]) _

/-! ## Rolls -/

/-- A variable rolls to its value and is noted. -/
theorem roll_named {setup : Setup} {name : String} {n : Int} (h : setup.table.get? name = some n)
    (room : Nat) (before : Ledger) :
    (Expr.named name).roll setup room before =
      .ok { value := n } { before with used := before.used.insert name n } := by
  have hresolve : Rolling.resolve setup (.named name) before =
      .ok n { before with used := before.used.insert name n } := by
    simp only [Rolling.resolve, h]
  exact Run.bind_of_ok hresolve

/-- A name that is assigned to has a value that was assigned to it last. -/
theorem exists_last? {assignments : List Assignment} {a : Assignment} (ha : a ∈ assignments) :
    ∃ b ∈ assignments,
      Bindings.last? (assignments.map Assignment.binding) (uppered a.name) = some b.value := by
  rw [Bindings.last?]
  cases hlast : ((assignments.map Assignment.binding).filter
      fun entry => uppered entry.1 == uppered a.name).getLast? with
  | none =>
    rw [List.getLast?_eq_none_iff, List.filter_eq_nil_iff] at hlast
    exact absurd (beq_self_eq_true _) (hlast a.binding (List.mem_map_of_mem ha))
  | some entry =>
    obtain ⟨b, hb, rfl⟩ := List.mem_map.mp (List.mem_of_mem_filter (List.mem_of_getLast? hlast))
    exact ⟨b, hb, rfl⟩

/-- **Assignments reach the roll.**  Options that assign integers to names are read as a table, and
    with this table every one of the names, marked, is evaluated: no die is drawn, the one variable
    that is looked up is the name in upper case, and the total is the value that was assigned to the
    name last, letter case aside. -/
theorem evaluate_options (assignments : List Assignment) :
    ∃ table, tableOfOptions (assignments.map Assignment.text) = .ok table ∧
      ∀ a ∈ assignments, ∀ (settings : Settings) (source : Source) (depth : Nat) (before : Ledger),
        ∃ value report after,
          Bindings.last? (assignments.map Assignment.binding) (uppered a.name) = some value ∧
          evaluate settings table source depth ("@" ++ a.name) before = .ok report after ∧
          report.error = none ∧ report.total = value ∧ report.rolls = [] ∧
          report.used = [(uppered a.name, value)] ∧ after.requests = before.requests := by
  refine ⟨_, tableOfOptions_text assignments, fun a ha settings source depth before => ?_⟩
  obtain ⟨b, -, hlast⟩ := exists_last? ha
  generalize hbindings : assignments.map Assignment.binding = bindings at hlast ⊢
  have hupper : ∀ entry ∈ bindings, InUpperCase (uppered entry.1) := by
    intro entry hentry
    rw [← hbindings] at hentry
    obtain ⟨b, -, rfl⟩ := List.mem_map.mp hentry
    exact b.inUpperCase
  have hset : (settings.setup (Bindings.upperCased bindings) source depth).table =
      Bindings.upperCased bindings := Bindings.upperCased_upperCased hupper
  have hget : (settings.setup (Bindings.upperCased bindings) source depth).table.get?
      (uppered a.name) = some b.value := by
    rw [hset, Bindings.get?_upperCased, hlast]
  obtain ⟨start, hused, hrequests, hevaluate⟩ := evaluate_of_exprOf
    (exprOf_mark a.nonempty a.letters settings) (Bindings.upperCased bindings) source depth before
  have hfits : ({ value := b.value } : Tally).figures.all Numeral.fits = true :=
    List.all_eq_true.mpr fun n hn => List.mem_singleton.mp hn ▸ b.fits
  have h := hevaluate _ (roll_named hget depth start)
  rw [orFailure_tally hfits, hused] at h
  exact ⟨b.value, _, _, hlast, h, rfl, rfl, rfl, rfl, hrequests⟩

/-- Options for the name of an alias in two letter cases, of which the later one counts. -/
theorem evaluate_options_alias :
    ∃ table, tableOfOptions ["adv=3", "@Adv=-12"] = .ok table ∧
      ∃ report after, evaluate {} table (Source.always 1) 9 "@adv" {} = .ok report after ∧
        report.error = none ∧ report.total = -12 ∧ report.rolls = [] ∧
        report.used = [("ADV", -12)] := by
  have hshort : ∀ n : Int, n.natAbs < Nat.pow 10 2 → Numeral.fits n = true := fun n hn =>
    Numeral.fits_of_lt hn (by decide)
  obtain ⟨first, htext, hname, hbinding⟩ :
      ∃ a : Assignment, a.text = "adv=3" ∧ a.name = "adv" ∧ a.binding = ("adv", 3) := by
    refine ⟨⟨false, "adv", 3, by decide, by simp [isNameLetter], hshort 3 (by decide)⟩, ?_, rfl,
      rfl⟩
    show "" ++ "adv" ++ "=" ++ Numeral.decimal 3 = "adv=3"
    decide
  obtain ⟨second, htext', hbinding'⟩ :
      ∃ a : Assignment, a.text = "@Adv=-12" ∧ a.binding = ("Adv", -12) := by
    refine ⟨⟨true, "Adv", -12, by decide, by simp [isNameLetter], hshort (-12) (by decide)⟩, ?_,
      rfl⟩
    show "@" ++ "Adv" ++ "=" ++ Numeral.decimal (-12) = "@Adv=-12"
    decide
  obtain ⟨table, htable, hrolls⟩ := evaluate_options [first, second]
  obtain ⟨value, report, after, hlast, hreport, hok, htotal, hdice, hused, -⟩ :=
    hrolls first (by simp) {} (Source.always 1) 9 {}
  have hupper : uppered "adv" = "ADV" := by decide +kernel
  have hfound : Bindings.last? [("adv", 3), ("Adv", -12)] "ADV" = some (-12 : Int) := by
    decide +kernel
  rw [List.map_cons, List.map_singleton, hbinding, hbinding', hname, hupper] at hlast
  obtain rfl : -12 = value := Option.some.inj (hfound.symm.trans hlast)
  rw [List.map_cons, List.map_singleton, htext, htext'] at htable
  rw [hname] at hreport hused
  rw [hupper] at hused
  exact ⟨table, htable, report, after, hreport, hok, htotal, hdice, hused⟩

end Tabletop
