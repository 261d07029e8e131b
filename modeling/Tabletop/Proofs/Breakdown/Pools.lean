/-
  What a breakdown says of Hope/Fear rolls, read back from its words.

  1. **Reading** — a face of hope or of fear is a word with its name and the number in parentheses;
     what a pool counts is the word behind an arrow, a sign and a number.
  2. **Words** — a text that stands between spaces is read by itself (`Accounts`), and where neither
     of the names nor an arrow stands, nothing is read.
  3. **Parts** — from the parts of the dice of hope and fear their faces are read, from the part of
     a pool its best die.  All dice of a pool stand in one part, whichever rolls they are of.
-/
import Mathlib
import Tabletop.Alias
import Tabletop.Proofs.Breakdown.Figure
import Tabletop.Proofs.Breakdown.Groups
import Tabletop.Proofs.Rolling.Sums

namespace Tabletop.Breakdown

open Numeral Text

/-! ## Reading -/

/-- The face of hope or of fear that a word shows. -/
def pairFace? (word : List Char) : Option Int :=
  ((after? "Hope(".toList word).or (after? "Fear(".toList word)).bind fun rest =>
    read? rest.dropLast

/-- A number with its sign. -/
def signed? : List Char → Option Int
  | '+' :: digits => read? digits
  | '-' :: digits => (read? digits).map (-·)
  | _ => none

/-- What is read from words one after the other, `behindArrow` telling whether an arrow stands
    before the first of them. -/
def countedFrom : Bool → List (List Char) → List Int
  | _, [] => []
  | behindArrow, word :: words =>
    (if behindArrow then signed? word else pairFace? word).toList ++
      countedFrom (word == ['→']) words

/-- The faces of hope and of fear that a line shows, and what it says that its pools count. -/
def counted (line : String) : List Int := countedFrom false (line.toList.splitOn ' ')

example : counted "2d12: Hope(7) + Fear(3) + 2d6 disadvantage (4, 1) → -4 = 6 [Hope]" =
    [7, 3, -4] := by decide +kernel

/-- From the text these numbers are read, and behind it and a space the reader begins anew. -/
def Accounts (text : String) (numbers : List Int) : Prop :=
  ∀ rest, countedFrom false (text.toList.splitOn ' ' ++ rest) = numbers ++ countedFrom false rest

/-- Neither a name of the two dice begins in the text, nor does an arrow stand there. -/
def Silent (text : String) : Prop := ∀ c ∈ ['H', 'F', '→'], c ∉ text.toList

/-- No name of the two dice begins with a character of faces, and an arrow is none. -/
theorem isFaceChar_of_silenced {c : Char} (h : c ∈ ['H', 'F', '→']) : isFaceChar c = false := by
  simp only [List.mem_cons, List.not_mem_nil, or_false] at h
  rcases h with rfl | rfl | rfl <;> simp [isFaceChar, isDigit]

/-- A number is silent. -/
theorem silent_decimal (n : Int) : Silent (decimal n) := fun _ hc =>
  not_mem_decimal (isFaceChar_of_silenced hc) n

/-- Silent texts in a row are silent. -/
theorem Silent.append {text text' : String} (h : Silent text) (h' : Silent text') :
    Silent (text ++ text') := by
  intro c hc
  rw [String.toList_append, List.mem_append, not_or]
  exact ⟨h c hc, h' c hc⟩

namespace Accounts

variable {text text' : String} {numbers numbers' : List Int}

/-- What is read of a line are its numbers. -/
theorem counted_eq (h : Accounts text numbers) : counted text = numbers := by
  have hread := h []
  rwa [List.append_nil, countedFrom, List.append_nil] at hread

/-- Of two texts with a space between them the numbers of both are read. -/
theorem append (h : Accounts text numbers) (h' : Accounts text' numbers') :
    Accounts (text ++ " " ++ text') (numbers ++ numbers') := by
  intro rest
  have htext : (text ++ " " ++ text').toList = text.toList ++ ' ' :: text'.toList := by simp
  rw [htext, List.splitOn_append_cons_self, List.append_assoc, h, h', List.append_assoc]

/-- A word by itself. -/
theorem word (hspace : ' ' ∉ text.toList) (harrow : text.toList ≠ ['→']) :
    Accounts text (pairFace? text.toList).toList := by
  intro rest
  rw [List.splitOn_eq_singleton hspace, List.singleton_append, countedFrom,
    if_neg Bool.false_ne_true, beq_false_of_ne harrow]

/-- A word behind an arrow. -/
theorem arrow (hspace : ' ' ∉ text.toList) (harrow : text.toList ≠ ['→']) :
    Accounts ("→ " ++ text) (signed? text.toList).toList := by
  intro rest
  have htext : ("→ " ++ text).toList = ['→'] ++ ' ' :: text.toList := by simp
  rw [htext, List.splitOn_append_cons_self_of_not_mem (by decide), List.splitOn_eq_singleton hspace]
  show countedFrom true (text.toList :: rest) = _
  rw [countedFrom, if_pos rfl, beq_false_of_ne harrow]

/-- Nothing is read where neither a name of the two dice begins nor an arrow stands. -/
theorem nothing (h : Silent text) : Accounts text [] := by
  intro rest
  rw [List.nil_append]
  have hwords : ∀ word ∈ text.toList.splitOn ' ', ∀ c ∈ ['H', 'F', '→'], c ∉ word :=
    fun word hword c hc hmem => h c hc (mem_of_mem_splitOn hword hmem)
  generalize text.toList.splitOn ' ' = words at hwords
  induction words with
  | nil => rfl
  | cons word words ih =>
    rw [List.forall_mem_cons] at hwords
    simp only [List.forall_mem_cons] at hwords
    obtain ⟨⟨hhope, hfear, harrow, -⟩, hwords⟩ := hwords
    have hnone : pairFace? word = none := by
      cases word with
      | nil => rfl
      | cons c word =>
        simp [pairFace?, after?, (List.ne_of_not_mem_cons hhope), List.ne_of_not_mem_cons hfear]
    have hne : word ≠ ['→'] := by
      rintro rfl
      exact harrow List.mem_cons_self
    rw [List.cons_append, countedFrom, if_neg Bool.false_ne_true, hnone, beq_false_of_ne hne,
      ih (by simpa using hwords)]
    rfl

end Accounts

/-- From the parts these numbers are read one after the other. -/
def AllAccount (parts : List String) (numbers : List Int) : Prop :=
  ∃ each, List.Forall₂ Accounts parts each ∧ each.flatten = numbers

namespace AllAccount

/-- Of a part by itself its numbers are read. -/
theorem singleton {part : String} {numbers : List Int} (h : Accounts part numbers) :
    AllAccount [part] numbers :=
  ⟨[numbers], .cons h .nil, by simp⟩

/-- If from what comes of each element its numbers are read, from what comes of all they are read in
    a row. -/
theorem flatMap {α : Type} {parts : α → List String} {numbers : α → List Int} {as : List α}
    (h : ∀ a ∈ as, AllAccount (parts a) (numbers a)) :
    AllAccount (as.flatMap parts) (as.flatMap numbers) := by
  induction as with
  | nil => exact ⟨[], .nil, rfl⟩
  | cons a as ih =>
    obtain ⟨ha, has⟩ := List.forall_mem_cons.mp h
    obtain ⟨each, heach, hnumbers⟩ := ha
    obtain ⟨more, hmore, hrest⟩ := ih has
    refine ⟨each ++ more, List.rel_append heach hmore, ?_⟩
    rw [List.flatten_append, hnumbers, hrest, List.flatMap_cons]

/-- The parts with plus signs between them. -/
theorem intercalate {parts : List String} {numbers : List Int} (hne : parts ≠ [])
    (h : AllAccount parts numbers) : Accounts (" + ".intercalate parts) numbers := by
  obtain ⟨each, heach, rfl⟩ := h
  induction heach with
  | nil => exact absurd rfl hne
  | @cons part numbers parts each head tail ih =>
    cases tail with
    | nil => simpa using head
    | @cons next numbers' parts each head' tail =>
      have hplus : Accounts "+" [] := .nothing (by simp [Silent])
      have hrest := ih (List.cons_ne_nil _ _)
      have htext : " + ".intercalate (part :: next :: parts) =
          part ++ " " ++ "+" ++ " " ++ " + ".intercalate (next :: parts) := by
        rw [String.intercalate_cons_cons]
        exact String.toList_injective (by simp)
      rw [htext]
      simpa using (head.append hplus).append hrest

end AllAccount

/-! ## Parts -/

/-- A named face is read back, if it can be written. -/
theorem accounts_named {name : String} (hname : name = "Hope" ∨ name = "Fear") {n : Int}
    (hn : fits n = true) : Accounts (name ++ "(" ++ decimal n ++ ")") [n] := by
  have hspace : ' ' ∉ (decimal n).toList := not_mem_decimal (by decide) n
  have hread : pairFace? (name ++ "(" ++ decimal n ++ ")").toList = some n := by
    have htext : (name ++ "(" ++ decimal n ++ ")").toList =
        (name ++ "(").toList ++ ((decimal n).toList ++ [')']) := by simp
    have hfound : (after? "Hope(".toList (name ++ "(" ++ decimal n ++ ")").toList).or
        (after? "Fear(".toList (name ++ "(" ++ decimal n ++ ")").toList) =
          some ((decimal n).toList ++ [')']) := by
      rw [htext]
      rcases hname with rfl | rfl
      · rfl
      · rfl
    rw [pairFace?, hfound, Option.bind_some, List.dropLast_concat, read?_decimal hn]
  have hword : Accounts (name ++ "(" ++ decimal n ++ ")")
      (pairFace? (name ++ "(" ++ decimal n ++ ")").toList).toList := by
    refine .word ?_ ?_
    · rcases hname with rfl | rfl <;> simp [hspace]
    · rcases hname with rfl | rfl <;> simp
  rwa [hread] at hword

/-- A part of hope and fear. -/
theorem accounts_pair {hope fear : Int} (hhope : fits hope = true) (hfear : fits fear = true) :
    Accounts ("2d12: Hope(" ++ decimal hope ++ ") + Fear(" ++ decimal fear ++ ")")
      [hope, fear] := by
  have hdice : Accounts "2d12:" [] := .nothing (by simp [Silent])
  have hplus : Accounts "+" [] := .nothing (by simp [Silent])
  have htext : "2d12: Hope(" ++ decimal hope ++ ") + Fear(" ++ decimal fear ++ ")" =
      "2d12:" ++ " " ++ ("Hope" ++ "(" ++ decimal hope ++ ")") ++ " " ++ "+" ++ " " ++
        ("Fear" ++ "(" ++ decimal fear ++ ")") :=
    String.toList_injective (by simp)
  rw [htext]
  exact ((hdice.append (accounts_named (Or.inl rfl) hhope)).append hplus).append
    (accounts_named (Or.inr rfl) hfear)

/-- A number is read behind an arrow, with its sign. -/
theorem accounts_signed {sign : String} {n signed : Int}
    (h : sign = "+" ∧ signed = n ∨ sign = "-" ∧ signed = -n) (hn : fits n = true) :
    Accounts ("→ " ++ (sign ++ decimal n)) [signed] := by
  have hspace : ' ' ∉ (decimal n).toList := not_mem_decimal (by decide) n
  have hread : signed? (sign ++ decimal n).toList = some signed := by
    rcases h with ⟨rfl, rfl⟩ | ⟨rfl, rfl⟩
    · simp [signed?, read?_decimal hn]
    · simp [signed?, read?_decimal hn]
  have harrow : Accounts ("→ " ++ (sign ++ decimal n))
      (signed? (sign ++ decimal n).toList).toList := by
    refine .arrow ?_ ?_ <;> rcases h with ⟨rfl, -⟩ | ⟨rfl, -⟩ <;> simp [hspace]
  rwa [hread] at harrow

/-- What the part of a pool says that it counts. -/
def poolCount (role : String) (dice : List Die) : Int :=
  if role = Role.disadvantage then -Rolling.best dice else Rolling.best dice

/-- From the part of a pool its best die is read, with the sign of the pool. -/
theorem accounts_poolPart {role : String} (hrole : role = Role.advantage ∨ role = Role.disadvantage)
    {dice : List Die} (hbest : fits (Rolling.best dice) = true) :
    Accounts (poolPart role dice) [poolCount role dice] := by
  have hsilent : Silent role := by
    rcases hrole with rfl | rfl <;> simp [Silent, Role.advantage, Role.disadvantage]
  have hcomma : Silent ", " := by simp [Silent]
  have hfaces : Silent (", ".intercalate (dice.map fun die => decimal die.face)) := fun c hc =>
    not_mem_intercalate (hcomma c hc)
      (List.forall_mem_map.mpr fun die _ => silent_decimal die.face c hc)
  have hfront : Accounts (decimal dice.length ++ "d6 " ++ role ++ " (" ++
      ", ".intercalate (dice.map fun die => decimal die.face) ++ ")") [] :=
    .nothing ((((((silent_decimal _).append (by simp [Silent])).append hsilent).append
      (by simp [Silent])).append hfaces).append (by simp [Silent]))
  have hcount : Accounts ("→ " ++ ((if role = Role.disadvantage then "-" else "+") ++
      decimal (Rolling.best dice))) [poolCount role dice] := by
    rw [poolCount]
    split
    · exact accounts_signed (Or.inr ⟨rfl, rfl⟩) hbest
    · exact accounts_signed (Or.inl ⟨rfl, rfl⟩) hbest
  have htext : poolPart role dice = (decimal dice.length ++ "d6 " ++ role ++ " (" ++
      ", ".intercalate (dice.map fun die => decimal die.face) ++ ")") ++ " " ++
        ("→ " ++ ((if role = Role.disadvantage then "-" else "+") ++
          decimal (Rolling.best dice))) := by
    refine String.toList_injective ?_
    simp [poolPart, decimal]
  rw [htext]
  exact hfront.append hcount

/-- The words for the kinds of dice of Hope/Fear rolls. -/
def specialKinds : List String := [pairKind, Role.advantage, Role.disadvantage]

/-- What is read from the parts of the dice of one kind. -/
def countedIn (key : String) (dice : List Die) : List Int :=
  if key = pairKind then
    (List.zip (facesOf Role.hope dice) (facesOf Role.fear dice)).flatMap fun pair =>
      [pair.1, pair.2]
  else [poolCount key dice]

/-- The best die of a pool is as short a number as the dice are. -/
theorem fits_best {dice : List Die} (h : ∀ die ∈ dice, fits die.face = true) :
    fits (Rolling.best dice) = true := by
  rw [Rolling.best]
  cases hmax : (dice.map (·.face)).max? with
  | none => exact fits_of_lt (show (0 : Int).natAbs < Nat.pow 10 1 by decide) (by decide)
  | some n =>
    obtain ⟨die, hdie, rfl⟩ := List.mem_map.mp (List.max?_mem hmax)
    exact h die hdie

/-- From the parts of Hope/Fear dice the faces of the pairs are read, and what each pool counts. -/
theorem allAccount_partsOf {key : String} (hkey : key ∈ specialKinds) {dice : List Die}
    (hfits : ∀ die ∈ dice, fits die.face = true) :
    AllAccount (partsOf key dice) (countedIn key dice) := by
  have hface : ∀ role, ∀ n ∈ facesOf role dice, fits n = true := by
    intro role n hn
    obtain ⟨die, hdie, rfl⟩ := List.mem_map.mp hn
    exact hfits die (List.mem_of_mem_filter hdie)
  unfold partsOf countedIn
  split_ifs with hpair hpool
  · rw [pairParts, ← List.map_uncurry_zip_eq_zipWith, List.map_eq_flatMap]
    refine .flatMap fun pair hmem => .singleton ?_
    obtain ⟨hhope, hfear⟩ := List.of_mem_zip hmem
    exact accounts_pair (hface _ _ hhope) (hface _ _ hfear)
  · exact .singleton (accounts_poolPart hpool (fits_best hfits))
  · simp only [specialKinds, List.mem_cons, List.not_mem_nil, or_false] at hkey
    exact absurd (hkey.resolve_left hpair) hpool

/-! ## The line -/

/-- Nothing is read from a tag. -/
theorem Accounts.tagged {line : String} {numbers : List Int} (h : Accounts line numbers)
    {tag : Option String} (htag : ∀ t ∈ tag, t ∈ ["Critical", "Hope", "Fear"]) :
    Accounts (line ++ remarks tag none) numbers := by
  cases tag with
  | none => simpa [remarks] using h
  | some t =>
    have hword : Accounts ("[" ++ t ++ "]") [] := by
      have ht := htag t rfl
      simp only [List.mem_cons, List.not_mem_nil, or_false] at ht
      rcases ht with rfl | rfl | rfl <;> exact .word (by simp) (by simp)
    have hboth := h.append hword
    have htext : line ++ " " ++ ("[" ++ t ++ "]") = line ++ remarks (some t) none :=
      String.toList_injective (by simp [remarks])
    rwa [htext, List.append_nil] at hboth

/-- Nor from a verdict: behind its arrow stands a word. -/
theorem Accounts.checked {line : String} {numbers : List Int} (h : Accounts line numbers)
    (v : Verdict) : Accounts (line ++ verdictText v) numbers := by
  have hcheck : Accounts ("vs " ++ v.comparison.symbol ++ decimal v.threshold) [] := by
    refine .nothing ((Silent.append ?_ ?_).append (silent_decimal _))
    · simp [Silent]
    · cases v.comparison <;> simp [Silent, Comparison.symbol]
  have hpassed : Accounts ("→ " ++ passWord v.passed) [] := by
    cases v.passed <;> exact .arrow (by simp [passWord]) (by simp [passWord])
  have hall := (h.append hcheck).append hpassed
  have htext : line ++ " " ++ ("vs " ++ v.comparison.symbol ++ decimal v.threshold) ++ " " ++
      ("→ " ++ passWord v.passed) = line ++ verdictText v :=
    String.toList_injective (by simp [verdictText])
  rwa [htext, List.append_nil, List.append_nil] at hall

/-- Tag and verdict stand behind the line and say nothing of dice. -/
theorem Accounts.remarks {line : String} {numbers : List Int} (h : Accounts line numbers)
    {tag : Option String} (htag : ∀ t ∈ tag, t ∈ ["Critical", "Hope", "Fear"])
    (verdict : Option Verdict) : Accounts (line ++ remarks tag verdict) numbers := by
  cases verdict with
  | none => exact h.tagged htag
  | some v =>
    have htext : line ++ Breakdown.remarks tag (some v) =
        line ++ Breakdown.remarks tag none ++ verdictText v := by
      cases tag <;> simp [Breakdown.remarks, String.append_assoc]
    rw [htext]
    exact (h.tagged htag).checked v

/-- From a breakdown of dice of Hope/Fear rolls are read the faces and counts of each kind. -/
theorem accounts_text {dice : List Die} (hkinds : ∀ key ∈ kinds dice, key ∈ specialKinds)
    (hfits : ∀ die ∈ dice, fits die.face = true) (total : Int) (successes : Option Int)
    {tag : Option String} (htag : ∀ t ∈ tag, t ∈ ["Critical", "Hope", "Fear"])
    (verdict : Option Verdict) :
    Accounts (text dice total successes tag verdict)
      ((kinds dice).flatMap fun key => countedIn key (ofKind key dice)) := by
  have hparts : AllAccount (parts dice)
      ((kinds dice).flatMap fun key => countedIn key (ofKind key dice)) :=
    .flatMap fun key hkey => allAccount_partsOf (hkinds key hkey) fun die hdie =>
      hfits die (List.mem_of_mem_filter hdie)
  have hfigure : Silent (figure total successes) := by
    cases successes with
    | none => exact silent_decimal total
    | some n => exact (silent_decimal n).append (by simp [Silent])
  have hequals : Accounts ("= " ++ figure total successes) [] :=
    .nothing (Silent.append (by simp [Silent]) hfigure)
  have hwords : ∀ t ∈ tag, t ≠ "" := by
    rintro t ht rfl
    exact absurd (htag _ ht) (by decide)
  rw [text_eq dice total successes hwords]
  refine Accounts.remarks ?_ htag verdict
  simp only [text, Option.filter_none, String.append_empty]
  split
  · next hempty =>
    rw [List.isEmpty_iff] at hempty
    obtain ⟨each, heach, hnumbers⟩ := hparts
    rw [hempty, List.forall₂_nil_left_iff] at heach
    rw [← hnumbers, heach, String.empty_append]
    exact hequals
  · next hne =>
    have hboth := (hparts.intercalate (by simpa using hne)).append hequals
    rw [List.append_nil] at hboth
    have htext : " + ".intercalate (parts dice) ++ " " ++ ("= " ++ figure total successes) =
        " + ".intercalate (parts dice) ++ " " ++ "= " ++ figure total successes := by
      rw [String.append_assoc, String.append_assoc, String.append_assoc]
    rwa [htext] at hboth

/-! ## What it comes to -/

/-- The kinds of dice with roles. -/
theorem kinds_special {dice : List Die} (h : ∀ die ∈ dice, die.Laid)
    (hrole : ∀ die ∈ dice, die.role ≠ none) : ∀ key ∈ kinds dice, key ∈ specialKinds := by
  intro key hkey
  obtain ⟨die, hdie, rfl⟩ := mem_kinds.mp hkey
  cases h die hdie with
  | ordinary role => exact absurd role (hrole die hdie)
  | special known role_eq =>
    rw [kind_special known role_eq]
    simp only [Role.all, List.mem_cons, List.not_mem_nil, or_false] at known
    rcases known with rfl | rfl | rfl | rfl <;> decide

/-- The group of a pool has just the dice with that role. -/
theorem best_ofKind {role : String} (hrole : role = Role.advantage ∨ role = Role.disadvantage)
    {dice : List Die} (h : ∀ die ∈ dice, die.Laid) :
    Rolling.best (ofKind role dice) = bestOf role dice := by
  have hsame : ∀ die ∈ dice, (kind die == role) = (die.role == some role) := by
    intro die hdie
    cases h die hdie with
    | ordinary none =>
      have hne : kind die ≠ role := by
        have hapart := kind_ne_of_role_none none
        simp only [List.mem_cons, List.not_mem_nil, or_false, not_or] at hapart
        rcases hrole with rfl | rfl
        · exact hapart.2.1
        · exact hapart.2.2
      rw [beq_false_of_ne hne, none]
      rfl
    | special known role_eq =>
      rw [kind_special known role_eq, role_eq]
      simp only [Role.all, List.mem_cons, List.not_mem_nil, or_false] at known
      rcases known with rfl | rfl | rfl | rfl <;> rcases hrole with rfl | rfl <;> decide
  rw [Rolling.best, bestOf, facesOf, ofKind, List.filter_congr hsame]

/-- Numbers that come to nothing for a kind without dice can be added up for any kinds, if those
    that are there are among them. -/
theorem sum_kinds {dice : List Die} {keys : List String} (hnodup : keys.Nodup)
    (hkeys : ∀ key ∈ kinds dice, key ∈ keys) {numbers : String → List Int}
    (hnone : ∀ key ∈ keys, ofKind key dice = [] → (numbers key).sum = 0) :
    ((kinds dice).flatMap numbers).sum = (keys.map fun key => (numbers key).sum).sum := by
  have habsent : ∀ key ∈ keys.toFinset, key ∉ (kinds dice).toFinset → (numbers key).sum = 0 := by
    intro key hkey hmem
    refine hnone key (List.mem_toFinset.mp hkey) ?_
    refine List.filter_eq_nil_iff.mpr fun die hdie hkind => hmem ?_
    exact List.mem_toFinset.mpr (mem_kinds.mpr ⟨die, hdie, beq_iff_eq.mp hkind⟩)
  have hsubset : (kinds dice).toFinset ⊆ keys.toFinset := fun key hkey =>
    List.mem_toFinset.mpr (hkeys key (List.mem_toFinset.mp hkey))
  have hkinds : (kinds dice).Nodup := Bindings.nodup_eraseDups _
  have hsum := Finset.sum_subset hsubset habsent
  rw [List.sum_toFinset _ hkinds, List.sum_toFinset _ hnodup] at hsum
  rwa [List.flatMap_def, List.sum_flatten, List.map_map]

/-- Without dice of a kind nothing is counted of it. -/
theorem sum_countedIn_nil {key : String} : (countedIn key []).sum = 0 := by
  rw [countedIn]
  split
  · rfl
  · rw [List.sum_singleton, poolCount]
    split <;> rfl

/-- What is read from a breakdown comes to all faces of hope and fear, and the best of all dice of
    each pool. -/
theorem sum_countedIn {dice : List Die} (h : ∀ die ∈ dice, die.Laid)
    (hrole : ∀ die ∈ dice, die.role ≠ none)
    (hpairs : (facesOf Role.hope dice).length = (facesOf Role.fear dice).length) :
    ((kinds dice).flatMap fun key => countedIn key (ofKind key dice)).sum =
      (facesOf Role.hope dice).sum + (facesOf Role.fear dice).sum + bestOf Role.advantage dice -
        bestOf Role.disadvantage dice := by
  have hpair : (countedIn pairKind (ofKind pairKind dice)).sum =
      (facesOf Role.hope dice).sum + (facesOf Role.fear dice).sum := by
    rw [countedIn, if_pos rfl, facesOf_ofKind (Or.inl rfl) h, facesOf_ofKind (Or.inr rfl) h]
    have hperm := flatMap_zip_perm id hpairs
    rw [List.map_id, List.map_id] at hperm
    rw [← List.sum_append]
    exact hperm.sum_eq
  have hadvantage : (countedIn Role.advantage (ofKind Role.advantage dice)).sum =
      bestOf Role.advantage dice := by
    rw [countedIn, if_neg (by decide), poolCount, if_neg (by decide), best_ofKind (Or.inl rfl) h,
      List.sum_singleton]
  have hdisadvantage : (countedIn Role.disadvantage (ofKind Role.disadvantage dice)).sum =
      -bestOf Role.disadvantage dice := by
    rw [countedIn, if_neg (by decide), poolCount, if_pos rfl, best_ofKind (Or.inr rfl) h,
      List.sum_singleton]
  have hdistinct : specialKinds.Nodup := by decide
  rw [sum_kinds hdistinct (kinds_special h hrole) fun key _ hnone => by
    rw [hnone, sum_countedIn_nil]]
  simp only [specialKinds, List.map_cons, List.map_nil, List.sum_cons, List.sum_nil, hpair,
    hadvantage, hdisadvantage]
  omega

end Tabletop.Breakdown
