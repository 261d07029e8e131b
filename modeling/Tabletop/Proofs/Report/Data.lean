/-
  **Reports lose nothing as data.**

  1. **Alike** — data are compared as mappings: the order of the fields of a record does not count,
     and a flag counts as the integer 0 or 1.
  2. **Entries** — a record leaves out the entries without a value.  Since each name has one entry,
     a field that is not there tells that its entry has no value: two records with the same names
     are alike just if their entries are alike one by one.
  3. **Parts** — so each part of a report is told by its data: flags that are off are left out, but
     are the only ones to be, an absent role too, unless there are empty roles.
-/
import Mathlib.Data.List.Forall2
import Tabletop.Report

namespace Tabletop

/-! ## Data that are alike -/

namespace Datum

/-- The two are the same, but for the order of the fields in records, and for flags, each of which
    is as good as an integer. -/
inductive Alike : Datum → Datum → Prop where
  | integer (n : Int) : Alike (.integer n) (.integer n)
  | flag (b : Bool) : Alike (.flag b) (.flag b)
  | flagInteger (b : Bool) : Alike (.flag b) (.integer (if b then 1 else 0))
  | integerFlag (b : Bool) : Alike (.integer (if b then 1 else 0)) (.flag b)
  | text (s : String) : Alike (.text s) (.text s)
  | list {xs ys : List Datum} (items : List.Forall₂ Alike xs ys) : Alike (.list xs) (.list ys)
  | record {fs gs : List (String × Datum)}
      (fields : ∀ key, Option.Rel Alike (fs.lookup key) (gs.lookup key)) :
      Alike (.record fs) (.record gs)

/-- Integers are alike just if they are the same. -/
theorem alike_integer {m n : Int} : Alike (.integer m) (.integer n) ↔ m = n := by
  constructor
  · rintro ⟨⟩
    rfl
  · rintro rfl
    exact .integer m

/-- Truth values are alike just if they are the same. -/
theorem alike_flag {a b : Bool} : Alike (.flag a) (.flag b) ↔ a = b := by
  constructor
  · rintro ⟨⟩
    rfl
  · rintro rfl
    exact .flag a

/-- Texts are alike just if they are the same. -/
theorem alike_text {s t : String} : Alike (.text s) (.text t) ↔ s = t := by
  constructor
  · rintro ⟨⟩
    rfl
  · rintro rfl
    exact .text s

/-- Lists are alike just if their members are, one by one. -/
theorem alike_list {xs ys : List Datum} :
    Alike (.list xs) (.list ys) ↔ List.Forall₂ Alike xs ys := by
  constructor
  · rintro ⟨⟩
    assumption
  · exact .list

/-- Records are alike just if the values under every key are, or neither has one. -/
theorem alike_record {fs gs : List (String × Datum)} :
    Alike (.record fs) (.record gs) ↔ ∀ key, Option.Rel Alike (fs.lookup key) (gs.lookup key) := by
  constructor
  · rintro ⟨⟩
    assumption
  · exact .record

variable {α : Type} {f : α → Datum}

/-- Values that may be absent are told by their data if the values are. -/
theorem rel_map_iff (h : ∀ x y, Alike (f x) (f y) ↔ x = y) {a b : Option α} :
    Option.Rel Alike (a.map f) (b.map f) ↔ a = b := by
  constructor
  · intro hrel
    cases a with
    | none =>
      cases b with
      | none => rfl
      | some y => cases hrel
    | some x =>
      cases b with
      | none => cases hrel
      | some y =>
        cases hrel with
        | some hxy => rw [(h x y).mp hxy]
  · rintro rfl
    cases a with
    | none => exact .none
    | some x => exact .some ((h x x).mpr rfl)

/-- A list is told by the data of its items if these are. -/
theorem alike_list_map {P : α → Prop} (h : ∀ x y, P x → P y → (Alike (f x) (f y) ↔ x = y))
    {xs ys : List α} (hxs : ∀ x ∈ xs, P x) (hys : ∀ y ∈ ys, P y) :
    Alike (.list (xs.map f)) (.list (ys.map f)) ↔ xs = ys := by
  rw [alike_list, List.forall₂_map_left_iff, List.forall₂_map_right_iff]
  constructor
  · intro hall
    induction hall with
    | nil => rfl
    | @cons x y xs ys hxy _ ih =>
      rw [List.forall_mem_cons] at hxs hys
      rw [(h x y hxs.1 hys.1).mp hxy, ih hxs.2 hys.2]
  · rintro rfl
    exact List.forall₂_same.mpr fun x hx => (h x x (hxs x hx) (hxs x hx)).mpr rfl

/-! ## Records made of entries -/

/-- The record of entries, of which those without a value are left out. -/
def ofEntries (entries : List (String × Option Datum)) : Datum :=
  .record (entries.flatMap fun entry => Report.field entry.1 entry.2)

/-- A field is found under its name, if it has a value. -/
theorem lookup_field (name : String) (value : Option Datum) (key : String) :
    (Report.field name value).lookup key = if key = name then value else none := by
  cases value with
  | none => simp [Report.field]
  | some datum =>
    by_cases hkey : key = name
    · simp [Report.field, hkey]
    · simp [Report.field, List.lookup_cons, beq_false_of_ne hkey, hkey]

/-- Under a name the value of the first entry is found that has it, or what the other entries hold.
    -/
theorem lookup_entries_cons (name : String) (value : Option Datum)
    (entries : List (String × Option Datum)) (key : String) :
    (((name, value) :: entries).flatMap fun entry => Report.field entry.1 entry.2).lookup key =
      (if key = name then value else none).or
        ((entries.flatMap fun entry => Report.field entry.1 entry.2).lookup key) := by
  rw [List.flatMap_cons, List.lookup_append, lookup_field]

/-- No field has a name that no entry has. -/
theorem lookup_entries_eq_none {entries : List (String × Option Datum)} {key : String}
    (h : key ∉ entries.map (·.1)) :
    (entries.flatMap fun entry => Report.field entry.1 entry.2).lookup key = none := by
  induction entries with
  | nil => rfl
  | cons entry entries ih =>
    rw [List.map_cons, List.mem_cons, not_or] at h
    rw [lookup_entries_cons, if_neg h.1, Option.none_or, ih h.2]

/-- What may be absent is alike with something else in its place if both are alike one by one. -/
theorem rel_or {a a' b b' : Option Datum} (ha : Option.Rel Alike a a')
    (hb : Option.Rel Alike b b') : Option.Rel Alike (a.or b) (a'.or b') := by
  cases ha with
  | some h => exact .some h
  | none => exact hb

/-- Records of entries under the same names are alike just if the entries are, one by one. -/
theorem alike_ofEntries {names : List String} (hnodup : names.Nodup)
    {entries entries' : List (String × Option Datum)} (hnames : entries.map (·.1) = names)
    (hnames' : entries'.map (·.1) = names) :
    Alike (ofEntries entries) (ofEntries entries') ↔
      List.Forall₂ (fun entry entry' => Option.Rel Alike entry.2 entry'.2) entries entries' := by
  rw [ofEntries, ofEntries, alike_record]
  induction names generalizing entries entries' with
  | nil =>
    obtain rfl := List.map_eq_nil_iff.mp hnames
    obtain rfl := List.map_eq_nil_iff.mp hnames'
    exact ⟨fun _ => .nil, fun _ _ => .none⟩
  | cons _ names ih =>
    obtain ⟨⟨name, value⟩, entries, rfl, rfl, hrest⟩ := List.map_eq_cons_iff.mp hnames
    obtain ⟨⟨name', value'⟩, entries', rfl, hname, hrest'⟩ := List.map_eq_cons_iff.mp hnames'
    obtain rfl : name = name' := hname.symm
    rw [List.nodup_cons] at hnodup
    rw [List.forall₂_cons, ← ih hnodup.2 hrest hrest']
    simp only [lookup_entries_cons]
    -- Under the first name stands the first entry, and under any other what the rest holds there.
    constructor
    · intro hall
      have hnone := lookup_entries_eq_none (hrest ▸ hnodup.1)
      have hnone' := lookup_entries_eq_none (hrest' ▸ hnodup.1)
      refine ⟨?_, fun key => ?_⟩
      · have hhead := hall name
        rwa [if_pos rfl, if_pos rfl, hnone, hnone', Option.or_none, Option.or_none] at hhead
      · by_cases hkey : key = name
        · rw [hkey, hnone, hnone']
          exact .none
        · have htail := hall key
          rwa [if_neg hkey, if_neg hkey, Option.none_or, Option.none_or] at htail
    · rintro ⟨hhead, htail⟩ key
      refine rel_or ?_ (htail key)
      by_cases hkey : key = name
      · rwa [if_pos hkey, if_pos hkey]
      · rw [if_neg hkey, if_neg hkey]
        exact .none

end Datum

/-! ## Parts of a report -/

namespace Report

open Datum

/-- Sizes of dice are told apart by their data. -/
theorem alike_sides {s t : Sides Int} : Alike s.toDatum t.toDatum ↔ s = t := by
  cases s with
  | faces m =>
    cases t with
    | faces n =>
      show Alike (.integer m) (.integer n) ↔ _
      rw [alike_integer, Sides.faces.injEq]
    | fate => exact ⟨nofun, nofun⟩
  | fate =>
    cases t with
    | faces n => exact ⟨nofun, nofun⟩
    | fate => exact ⟨fun _ => rfl, fun _ => .text "F"⟩

/-- Comparisons are told apart by their symbols. -/
theorem symbol_inj {c d : Comparison} : c.symbol = d.symbol ↔ c = d := by
  refine ⟨fun h => ?_, congrArg _⟩
  have hread := Comparison.ofSymbol?_symbol c
  rw [h, Comparison.ofSymbol?_symbol] at hread
  exact (Option.some.inj hread).symm

/-- The fields of a verdict. -/
def verdictEntries (verdict : Verdict) : List (String × Option Datum) := [
  ("op", some (.text verdict.comparison.symbol)), ("value", some (.integer verdict.threshold)),
  ("pass", some (.flag verdict.passed))]

/-- Two values that are there are alike under a key just if they are alike. -/
theorem rel_some {a b : Datum} : Option.Rel Alike (some a) (some b) ↔ Alike a b := by
  constructor
  · rintro ⟨h⟩
    exact h
  · exact .some

/-- Verdicts are told apart by their data. -/
theorem alike_verdict {v w : Verdict} : Alike v.toDatum w.toDatum ↔ v = w := by
  have hnodup : ["op", "value", "pass"].Nodup := by decide
  show Alike (ofEntries (verdictEntries v)) (ofEntries (verdictEntries w)) ↔ _
  rw [alike_ofEntries hnodup rfl rfl]
  simp only [verdictEntries, List.forall₂_cons, List.Forall₂.nil, rel_some, alike_text,
    alike_integer, alike_flag, symbol_inj, and_true]
  cases v
  cases w
  simp

/-- What is said of a flag: nothing if it is off. -/
def flagValue (flag : Bool) : Option Datum := if flag then some (.flag true) else none

/-- Whether a flag is left out tells its value. -/
theorem rel_flagValue {a b : Bool} : Option.Rel Alike (flagValue a) (flagValue b) ↔ a = b := by
  cases a with
  | false =>
    cases b with
    | false => exact ⟨fun _ => rfl, fun _ => .none⟩
    | true => exact ⟨nofun, nofun⟩
  | true =>
    cases b with
    | false => exact ⟨nofun, nofun⟩
    | true => exact ⟨fun _ => rfl, fun _ => .some (.flag true)⟩

/-- The fields of a die. -/
def dieEntries (die : Die) : List (String × Option Datum) := [
  ("sides", some die.sides.toDatum), ("result", some (.integer die.face)),
  ("exploded", flagValue die.exploded), ("dropped", flagValue die.dropped),
  ("rerolled", flagValue die.rerolled), ("success", flagValue die.success),
  ("role", die.namedRole.map .text)]

/-- The flags that are on are the ones of which something is said. -/
theorem map_filter_flags (flags : List (String × Bool)) :
    ((flags.filter (·.2)).map (·.1)).map (fun name => (name, Datum.flag true)) =
      flags.flatMap fun flag => field flag.1 (flagValue flag.2) := by
  induction flags with
  | nil => rfl
  | cons flag flags ih =>
    obtain ⟨name, on⟩ := flag
    cases on with
    | false => exact ih
    | true => exact congrArg (List.cons (name, Datum.flag true)) ih

/-- The data of a die is a record of its entries. -/
theorem toDatum_die (die : Die) : die.toDatum = ofEntries (dieEntries die) := by
  have hrole : field "role" (die.namedRole.map .text) =
      (die.namedRole.map fun role => ("role", Datum.text role)).toList := by
    rw [field, Option.map_map]
    rfl
  rw [Die.toDatum, Die.flagNames, map_filter_flags, ← hrole]
  simp [ofEntries, dieEntries, Die.flags, field]

/-- A role that is not empty has a name. -/
theorem namedRole_eq {die : Die} (h : die.role ≠ some "") : die.namedRole = die.role := by
  rw [Die.namedRole]
  cases hrole : die.role with
  | none => rfl
  | some role =>
    rw [hrole, Ne, Option.some.injEq] at h
    simp [h]

/-- Dice are told apart by their data, as long as no role is an empty text. -/
theorem alike_die {a b : Die} (ha : a.role ≠ some "") (hb : b.role ≠ some "") :
    Alike a.toDatum b.toDatum ↔ a = b := by
  have hnodup :
      ["sides", "result", "exploded", "dropped", "rerolled", "success", "role"].Nodup := by decide
  rw [toDatum_die, toDatum_die, alike_ofEntries hnodup rfl rfl]
  simp only [dieEntries, List.forall₂_cons, List.Forall₂.nil, rel_some, alike_sides, alike_integer,
    rel_flagValue, rel_map_iff fun _ _ => alike_text, namedRole_eq ha, namedRole_eq hb, and_true]
  cases a
  cases b
  simp

/-! ## Whole reports -/

/-- The variables of a report are told by what their names are bound to. -/
theorem alike_variables {used used' : Bindings Int} :
    Alike (.record (used.map fun v => (v.1, .integer v.2)))
        (.record (used'.map fun v => (v.1, .integer v.2))) ↔
      ∀ name, used.get? name = used'.get? name := by
  have hlookup : ∀ (bindings : Bindings Int) (name : String),
      (bindings.map fun v => (v.1, Datum.integer v.2)).lookup name =
        (bindings.get? name).map .integer := by
    intro bindings name
    induction bindings with
    | nil => rfl
    | cons entry bindings ih =>
      rw [Bindings.get?] at ih ⊢
      rw [List.map_cons, List.lookup_cons, List.lookup_cons, ih]
      cases name == entry.1 <;> rfl
  rw [alike_record]
  refine forall_congr' fun name => ?_
  rw [hlookup, hlookup]
  exact rel_map_iff fun _ _ => alike_integer

/-- The fields of a report. -/
def entries (report : Report) : List (String × Option Datum) := [
  ("expression", some (.text report.expression)), ("total", some (.integer report.total)),
  ("breakdown", some (.text report.breakdown)),
  ("rolls", some (.list (report.rolls.map Die.toDatum))),
  ("variables", some (.record (report.used.map fun v => (v.1, .integer v.2)))),
  ("successes", report.successes.map .integer), ("target", report.verdict.map Verdict.toDatum),
  ("hope", report.hope.map .integer), ("fear", report.fear.map .integer),
  ("tag", report.tag.map .text), ("error", report.error.map .text)]

/-- The data of a report is a record of its entries. -/
theorem toDatum_eq (report : Report) : report.toDatum = ofEntries report.entries := by
  simp [toDatum, ofEntries, entries, field]

/-- The reports agree in every field; of the variables it is what they are bound to that counts, not
    their order. -/
structure Agrees (r s : Report) : Prop where
  expression : r.expression = s.expression
  total : r.total = s.total
  breakdown : r.breakdown = s.breakdown
  rolls : r.rolls = s.rolls
  used : ∀ name, r.used.get? name = s.used.get? name
  successes : r.successes = s.successes
  verdict : r.verdict = s.verdict
  hope : r.hope = s.hope
  fear : r.fear = s.fear
  tag : r.tag = s.tag
  error : r.error = s.error

/-- **Reports lose nothing as data.**  Let no die have an empty role.  Then two reports are alike as
    data just if they agree in every field. -/
theorem alike_toDatum_iff {r s : Report} (hr : ∀ die ∈ r.rolls, die.role ≠ some "")
    (hs : ∀ die ∈ s.rolls, die.role ≠ some "") : Alike r.toDatum s.toDatum ↔ r.Agrees s := by
  have hnodup : ["expression", "total", "breakdown", "rolls", "variables", "successes", "target",
      "hope", "fear", "tag", "error"].Nodup := by decide
  rw [toDatum_eq, toDatum_eq, alike_ofEntries hnodup rfl rfl]
  simp only [entries, List.forall₂_cons, List.Forall₂.nil, rel_some, and_true, alike_text,
    alike_integer, alike_list_map (fun _ _ => alike_die) hr hs, alike_variables,
    rel_map_iff fun _ _ => alike_integer, rel_map_iff fun _ _ => alike_verdict,
    rel_map_iff fun _ _ => alike_text]
  constructor
  · rintro ⟨expression, total, breakdown, rolls, used, successes, verdict, hope, fear, tag, error⟩
    exact ⟨expression, total, breakdown, rolls, used, successes, verdict, hope, fear, tag, error⟩
  · rintro ⟨expression, total, breakdown, rolls, used, successes, verdict, hope, fear, tag, error⟩
    exact ⟨expression, total, breakdown, rolls, used, successes, verdict, hope, fear, tag, error⟩

/-- Two reports that differ in the order of their variables only, with a verdict, a Fate die, a die
    in a role, and optional parts that are zero or empty. -/
theorem alike_toDatum_iff_order :
    ∃ (rolls : List Die) (r s : Report),
      rolls = [{ sides := .fate, face := -1, dropped := true },
        { sides := .faces 12, face := 7, role := some "hope" }] ∧
      r = { expression := "4dF", total := -1, breakdown := "", rolls, successes := some 0,
            verdict := some ⟨.ge, 0, false⟩, hope := some 0, tag := some "",
            used := [("A", 0), ("B", -1)] } ∧
      s = { r with used := [("B", -1), ("A", 0)] } ∧
      (∀ die ∈ rolls, die.role ≠ some "") ∧
      (Alike r.toDatum s.toDatum ↔ r.Agrees s) ∧ r.Agrees s := by
  have hroles : ∀ die ∈ ([{ sides := .fate, face := -1, dropped := true },
      { sides := .faces 12, face := 7, role := some "hope" }] : List Die), die.role ≠ some "" := by
    decide
  have hused : ∀ name, Bindings.get? [("A", (0 : Int)), ("B", -1)] name =
      Bindings.get? [("B", -1), ("A", 0)] name := by
    intro name
    by_cases ha : name = "A"
    · subst ha
      rfl
    · simp [Bindings.get?, List.lookup_cons, beq_false_of_ne ha]
  refine ⟨_, _, _, rfl, rfl, rfl, hroles, alike_toDatum_iff hroles hroles, ?_⟩
  exact ⟨rfl, rfl, rfl, rfl, hused, rfl, rfl, rfl, rfl, rfl, rfl⟩

/-- An empty role is lost. -/
example (die : Die) :
    ({ die with role := some "" } : Die).toDatum = ({ die with role := none } : Die).toDatum := rfl

end Report

end Tabletop
