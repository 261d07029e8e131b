/-
  The faces that a breakdown shows, read back from its text.

  1. **Reading** — a face is what stands in parentheses, between commas.  The reader knows no more
     of a breakdown than that.
  2. **Parts** — each part opens and closes its parentheses, and no face holds a mark that ends it.
     So from a part the faces are read that were put into it.
  3. **The line** — between the parts and behind them nothing stands in parentheses, so from the
     line are read the faces of its parts, in order.
-/
import Mathlib
import Tabletop.Breakdown
import Tabletop.Proofs.Numeral

namespace Tabletop.Breakdown

open Numeral Text

/-! ## Reading -/

/-- The items that stand in parentheses, between commas and without blanks; of an item that has been
    begun, the characters so far are handed on. -/
def itemsFrom : Option (List Char) → List Char → List (List Char)
  | none, c :: rest => itemsFrom (if c = '(' then some [] else none) rest
  | some item, c :: rest =>
    if c = ')' then item :: itemsFrom none rest
    else if c = ',' then item :: itemsFrom (some []) rest
    else itemsFrom (some (if c = ' ' then item else item ++ [c])) rest
  | _, [] => []

/-- The faces that a text shows. -/
def facesShown (text : String) : List String := (itemsFrom none text.toList).map String.ofList

example : facesShown "1d20 (17) drop(4) + 2d6 (6!, 3) = 26" = ["17", "4", "6!", "3"] := by cbv

/-- The text shows these faces, and behind it the reader begins anew. -/
def Shows (text : String) (faces : List String) : Prop :=
  ∀ rest, itemsFrom none (text.toList ++ rest) = faces.map String.toList ++ itemsFrom none rest

namespace Shows

variable {text text' : String} {faces faces' : List String}

/-- What a text shows is what is read of it. -/
theorem facesShown_eq (h : Shows text faces) : facesShown text = faces := by
  have hread := h []
  rw [List.append_nil, itemsFrom, List.append_nil] at hread
  rw [facesShown, hread, List.map_map]
  simp

/-- Two texts in a row show the faces of both. -/
theorem append (h : Shows text faces) (h' : Shows text' faces') :
    Shows (text ++ text') (faces ++ faces') := by
  intro rest
  rw [String.toList_append, List.append_assoc, h, h', List.map_append, List.append_assoc]

/-- Without an opening parenthesis, no face is shown. -/
theorem nothing (h : '(' ∉ text.toList) : Shows text [] := by
  intro rest
  rw [List.map_nil, List.nil_append]
  generalize text.toList = cs at h
  induction cs with
  | nil => rfl
  | cons c cs ih =>
    obtain ⟨hc, hcs⟩ := not_or.mp (List.mem_cons.not.mp h)
    rw [List.cons_append, itemsFrom, if_neg (Ne.symm hc), ih hcs]

/-- What stands between texts that show faces may show none. -/
theorem intercalate {between : String} (hbetween : '(' ∉ between.toList) {texts : List String}
    (h : ∀ text ∈ texts, Shows text (facesShown text)) :
    Shows (between.intercalate texts) (texts.flatMap facesShown) := by
  induction texts with
  | nil => exact .nothing (by simp)
  | cons text texts ih =>
    obtain ⟨htext, htexts⟩ := List.forall_mem_cons.mp h
    cases texts with
    | nil =>
      rw [String.intercalate_singleton, List.flatMap_cons, List.flatMap_nil, List.append_nil]
      exact htext
    | cons next texts =>
      rw [String.intercalate_cons_cons, List.flatMap_cons]
      have hbefore := htext.append (nothing hbetween)
      rw [List.append_nil] at hbefore
      exact hbefore.append (ih htexts)

end Shows

/-! ## Faces -/

/-- The characters of faces and of the marks at them. -/
def isFaceChar (c : Char) : Bool := isDigit c || ['-', '+', '!', '✓'].contains c

/-- A number is written in characters of faces. -/
theorem isFaceChar_of_mem_decimal {n : Int} {c : Char} (h : c ∈ (decimal n).toList) :
    isFaceChar c = true := by
  rcases eq_or_isDigit_of_mem_decimal h with rfl | hdigit
  · decide
  · rw [isFaceChar, hdigit, Bool.true_or]

/-- A face is written in its characters, that of a Fate die as a sign. -/
theorem isFaceChar_of_mem_face {die : Die} {c : Char} (h : c ∈ (face die).toList) :
    isFaceChar c = true := by
  have hsign : ∀ sign ∈ ["-", "0", "+"], c ∈ sign.toList → isFaceChar c = true := by
    simp only [List.forall_mem_cons]
    refine ⟨?_, ?_, ?_, by simp⟩ <;> (intro hc; obtain rfl := List.mem_singleton.mp hc; decide)
  rw [face] at h
  split_ifs at h
  · exact hsign "-" (by simp) h
  · exact hsign "0" (by simp) h
  · exact hsign "+" (by simp) h
  · exact isFaceChar_of_mem_decimal h
  · exact isFaceChar_of_mem_decimal h

/-- The mark of a die that exploded is a character of faces, too. -/
theorem isFaceChar_of_mem_markedFace {die : Die} {c : Char} (h : c ∈ (markedFace die).toList) :
    isFaceChar c = true := by
  have hmark : ∀ (shown : Bool) (mark : String), mark ∈ ["!", "✓"] →
      c ∈ (if shown then mark else "").toList → isFaceChar c = true := by
    intro shown mark hmark hc
    simp only [List.mem_cons, List.not_mem_nil, or_false] at hmark
    cases shown with
    | false => simp at hc
    | true =>
      rcases hmark with rfl | rfl <;> (obtain rfl := List.mem_singleton.mp hc; decide)
  rw [markedFace, String.toList_append, String.toList_append, List.mem_append, List.mem_append] at h
  rcases h with (h | h) | h
  · exact isFaceChar_of_mem_face h
  · exact hmark die.exploded "!" (by simp) h
  · exact hmark die.success "✓" (by simp) h

/-- Nothing of the text ends an item. -/
def IsItem (text : String) : Prop := ∀ c ∈ text.toList, isFaceChar c = true

/-- An item is read up to its end. -/
theorem itemsFrom_item {cs : List Char} (h : ∀ c ∈ cs, isFaceChar c = true)
    (item rest : List Char) :
    itemsFrom (some item) (cs ++ rest) = itemsFrom (some (item ++ cs)) rest := by
  induction cs generalizing item with
  | nil => rw [List.nil_append, List.append_nil]
  | cons c cs ih =>
    obtain ⟨hc, hcs⟩ := List.forall_mem_cons.mp h
    have hne : ∀ d : Char, isFaceChar d = false → c ≠ d := by
      rintro d hd rfl
      cases hc.symm.trans hd
    rw [List.cons_append, itemsFrom, if_neg (hne ')' (by decide)), if_neg (hne ',' (by decide)),
      if_neg (hne ' ' (by decide)), ih hcs, List.append_assoc, List.singleton_append]

/-- Items in parentheses are read as they were put there: induction on their list. -/
theorem Shows.parentheses {items : List String} (hne : items ≠ [])
    (h : ∀ item ∈ items, IsItem item) :
    Shows ("(" ++ ", ".intercalate items ++ ")") items := by
  intro rest
  rw [String.toList_append, String.toList_append, String.toList_intercalate, List.append_assoc,
    List.append_assoc]
  rw [show "(".toList = ['('] from rfl, List.singleton_append, itemsFrom, if_pos rfl]
  induction items with
  | nil => exact absurd rfl hne
  | cons item items ih =>
    obtain ⟨hitem, hitems⟩ := List.forall_mem_cons.mp h
    cases items with
    | nil =>
      rw [List.map_singleton, List.intercalate_singleton, itemsFrom_item hitem]
      rfl
    | cons next items =>
      rw [List.map_cons, List.map_cons, List.intercalate_cons_cons, List.append_assoc,
        List.append_assoc, itemsFrom_item hitem, ← List.map_cons, List.cons_append,
        ← ih (by simp) hitems]
      rfl

/-- After a word that shows none, the faces of a list are shown. -/
theorem Shows.listed {word : String} (hword : '(' ∉ word.toList) {faces : List String}
    (h : ∀ face ∈ faces, IsItem face) : Shows (listed word faces) faces := by
  rw [Breakdown.listed]
  split
  · next hempty =>
    rw [List.isEmpty_iff.mp hempty]
    exact .nothing (by simp)
  · next hne =>
    have hshows := (nothing hword).append (parentheses (by simpa using hne) h)
    simpa only [String.append_assoc, List.nil_append] using hshows

/-! ## Parts -/

/-- The parts show these faces one after the other. -/
structure AllShow (parts faces : List String) : Prop where
  each : ∀ part ∈ parts, Shows part (facesShown part)
  faces : parts.flatMap facesShown = faces

namespace AllShow

/-- A part by itself shows its faces. -/
theorem singleton {part : String} {faces : List String} (h : Shows part faces) :
    AllShow [part] faces := by
  have heq := h.facesShown_eq
  refine ⟨?_, by rw [List.flatMap_singleton, heq]⟩
  rw [List.forall_mem_singleton, heq]
  exact h

/-- If what comes of each element shows its faces, what comes of all shows them in a row. -/
theorem flatMap {α : Type} {parts faces : α → List String} {as : List α}
    (h : ∀ a ∈ as, AllShow (parts a) (faces a)) :
    AllShow (as.flatMap parts) (as.flatMap faces) := by
  constructor
  · intro part hpart
    obtain ⟨a, ha, hmem⟩ := List.mem_flatMap.mp hpart
    exact (h a ha).each part hmem
  · rw [List.flatMap_assoc]
    exact List.flatMap_congr fun a ha => (h a ha).faces

end AllShow

/-- The faces in the parts of the dice of one kind, in the order in which they stand there. -/
def facesIn (key : String) (dice : List Die) : List String :=
  if key = pairKind then
    (List.zip (facesOf Role.hope dice) (facesOf Role.fear dice)).flatMap fun pair =>
      [decimal pair.1, decimal pair.2]
  else if key = Role.advantage ∨ key = Role.disadvantage then dice.map fun die => decimal die.face
  else (dice.filter (·.active)).map markedFace ++ (dice.filter (·.dropped)).map face ++
    (dice.filter (·.rerolled)).map face

/-- A number stands as one item between commas. -/
theorem isItem_decimal (n : Int) : IsItem (decimal n) := fun _ => isFaceChar_of_mem_decimal

theorem not_mem_decimal {c : Char} (h : isFaceChar c = false) (n : Int) :
    c ∉ (decimal n).toList := by
  intro hc
  cases h.symm.trans (isFaceChar_of_mem_decimal hc)

/-- The part of a Hope/Fear pair shows the face of hope and that of fear. -/
theorem shows_pair (hope fear : Int) :
    Shows ("2d12: Hope(" ++ decimal hope ++ ") + Fear(" ++ decimal fear ++ ")")
      [decimal hope, decimal fear] := by
  have hsingle : ∀ n : Int, Shows ("(" ++ decimal n ++ ")") [decimal n] := by
    intro n
    have hshows := Shows.parentheses (List.cons_ne_nil _ _)
      (List.forall_mem_singleton.mpr (isItem_decimal n))
    rwa [String.intercalate_singleton] at hshows
  have hhope : Shows "2d12: Hope" [] := .nothing (by decide)
  have hfear : Shows " + Fear" [] := .nothing (by decide)
  have htext : "2d12: Hope(" ++ decimal hope ++ ") + Fear(" ++ decimal fear ++ ")" =
      "2d12: Hope" ++ ("(" ++ decimal hope ++ ")") ++ " + Fear" ++ ("(" ++ decimal fear ++ ")") :=
    String.toList_injective (by simp)
  rw [htext]
  exact ((hhope.append (hsingle hope)).append hfear).append (hsingle fear)

/-- The part of a pool shows all its dice, and not the best one again behind the arrow. -/
theorem shows_poolPart {role : String} (hrole : '(' ∉ role.toList) {dice : List Die}
    (hne : dice ≠ []) : Shows (poolPart role dice) (dice.map fun die => decimal die.face) := by
  have hitems : ∀ item ∈ dice.map fun die => decimal die.face, IsItem item :=
    List.forall_mem_map.mpr fun die _ => isItem_decimal die.face
  have hopen := not_mem_decimal (c := '(') (by decide)
  have hbefore : Shows (decimal dice.length ++ "d6 " ++ role ++ " ") [] :=
    .nothing (by simp [hrole, hopen])
  have hafter : Shows (" → " ++ (if role = Role.disadvantage then "-" else "+") ++
      decimal (Rolling.best dice)) [] := by
    refine .nothing ?_
    split <;> simp [hopen]
  have htext : poolPart role dice = decimal dice.length ++ "d6 " ++ role ++ " " ++
      ("(" ++ ", ".intercalate (dice.map fun die => decimal die.face) ++ ")") ++
      (" → " ++ (if role = Role.disadvantage then "-" else "+") ++
        decimal (Rolling.best dice)) := by
    refine String.toList_injective ?_
    simp [poolPart, decimal]
  have hshows := (hbefore.append (.parentheses (by simpa using hne) hitems)).append hafter
  rw [htext]
  simpa using hshows

/-- The part of other dice shows those that count, then those that were dropped, then those that
    were rerolled. -/
theorem shows_ordinaryPart {key : String} (hkey : '(' ∉ key.toList) (dice : List Die) :
    Shows (ordinaryPart key dice) ((dice.filter (·.active)).map markedFace ++
      (dice.filter (·.dropped)).map face ++ (dice.filter (·.rerolled)).map face) := by
  have hmarked : ∀ dice : List Die, ∀ item ∈ dice.map markedFace, IsItem item :=
    fun dice => List.forall_mem_map.mpr fun die _ _ => isFaceChar_of_mem_markedFace
  have hplain : ∀ dice : List Die, ∀ item ∈ dice.map face, IsItem item :=
    fun dice => List.forall_mem_map.mpr fun die _ _ => isFaceChar_of_mem_face
  have hcount : Shows (decimal (dice.filter (·.active)).length ++ key) [] :=
    .nothing (by simp [hkey, not_mem_decimal (c := '(') (by decide)])
  exact ((hcount.append (.listed (by decide) (hmarked _))).append
    (.listed (by decide) (hplain _))).append (.listed (by decide) (hplain _))

/-- The parts of the dice of one kind show their faces. -/
theorem allShow_partsOf {key : String} (hkey : '(' ∉ key.toList) {dice : List Die}
    (hne : dice ≠ []) : AllShow (partsOf key dice) (facesIn key dice) := by
  unfold partsOf facesIn
  split_ifs
  · rw [pairParts, ← List.map_uncurry_zip_eq_zipWith, List.map_eq_flatMap]
    exact .flatMap fun pair _ => .singleton (shows_pair pair.1 pair.2)
  · exact .singleton (shows_poolPart hkey hne)
  · exact .singleton (shows_ordinaryPart hkey dice)

theorem mem_kinds {key : String} {dice : List Die} :
    key ∈ kinds dice ↔ ∃ die ∈ dice, kind die = key := by
  rw [kinds, List.mem_eraseDups, List.mem_map]

/-- There are dice of each kind that is listed. -/
theorem ofKind_ne_nil {key : String} {dice : List Die} (h : key ∈ kinds dice) :
    ofKind key dice ≠ [] := by
  obtain ⟨die, hdie, rfl⟩ := mem_kinds.mp h
  exact List.ne_nil_of_mem (List.mem_filter.mpr ⟨hdie, beq_self_eq_true _⟩)

/-- The parts of all dice show the faces of each kind. -/
theorem allShow_parts {dice : List Die} (hkeys : ∀ key ∈ kinds dice, '(' ∉ key.toList) :
    AllShow (parts dice) ((kinds dice).flatMap fun key => facesIn key (ofKind key dice)) :=
  .flatMap fun key hkey => allShow_partsOf (hkeys key hkey) (ofKind_ne_nil hkey)

/-! ## The line -/

/-- What stands behind the figure: the tag in brackets, and the verdict. -/
def remarks (tag : Option String) (verdict : Option Verdict) : String :=
  (match tag with | some t => " [" ++ t ++ "]" | none => "") ++
    (match verdict with | some v => verdictText v | none => "")

/-- The remarks stand behind all else. -/
theorem text_eq (dice : List Die) (total : Int) (successes : Option Int) {tag : Option String}
    (htag : ∀ t ∈ tag, t ≠ "") (verdict : Option Verdict) :
    text dice total successes tag verdict =
      text dice total successes none none ++ remarks tag verdict := by
  cases tag with
  | none => cases verdict <;> simp [text, remarks, String.append_assoc]
  | some t =>
    have hfilter : (some t).filter (· != "") = some t :=
      Option.filter_some_pos (bne_iff_ne.mpr (htag t rfl))
    cases verdict <;> simp only [text, remarks, hfilter, Option.filter_none, String.append_empty,
      String.append_assoc]

/-- The figure is written in characters of faces, but for the word behind a count of successes. -/
theorem not_mem_figure {c : Char} (h : isFaceChar c = false) (hword : c ∉ " successes".toList)
    (total : Int) (successes : Option Int) : c ∉ (figure total successes).toList := by
  cases successes with
  | none => exact not_mem_decimal h total
  | some n =>
    rw [figure, String.toList_append, List.mem_append, not_or]
    exact ⟨not_mem_decimal h n, hword⟩

/-- No parenthesis opens in the remarks. -/
theorem not_mem_remarks {tag : Option String} (htag : ∀ t ∈ tag, '(' ∉ t.toList)
    (verdict : Option Verdict) : '(' ∉ (remarks tag verdict).toList := by
  have hverdict : ∀ v : Verdict, '(' ∉ (verdictText v).toList := by
    intro v
    have hsymbol : '(' ∉ v.comparison.symbol.toList := by cases v.comparison <;> decide
    have hword : '(' ∉ (passWord v.passed).toList := by cases v.passed <;> decide
    simp [verdictText, hsymbol, hword, not_mem_decimal (c := '(') (by decide)]
  cases tag with
  | none =>
    cases verdict with
    | none => simp [remarks]
    | some v => simp [remarks, hverdict v]
  | some t =>
    have ht := htag t rfl
    cases verdict with
    | none => simp [remarks, ht]
    | some v => simp [remarks, ht, hverdict v]

/-- A breakdown shows the faces of each kind of its dice, and nothing else as a face. -/
theorem shows_text {dice : List Die} (hkeys : ∀ key ∈ kinds dice, '(' ∉ key.toList)
    (total : Int) (successes : Option Int) {tag : Option String}
    (htag : ∀ t ∈ tag, t ≠ "" ∧ '(' ∉ t.toList) (verdict : Option Verdict) :
    Shows (text dice total successes tag verdict)
      ((kinds dice).flatMap fun key => facesIn key (ofKind key dice)) := by
  obtain ⟨heach, hfaces⟩ := allShow_parts hkeys
  have hparts : Shows (if (parts dice).isEmpty then "" else " + ".intercalate (parts dice) ++ " ")
      ((parts dice).flatMap facesShown) := by
    split
    · next hempty =>
      rw [List.isEmpty_iff.mp hempty]
      exact .nothing (by simp)
    · have hplus : Shows (" + ".intercalate (parts dice)) ((parts dice).flatMap facesShown) :=
        .intercalate (by decide) heach
      have hspace : Shows " " [] := .nothing (by decide)
      have hshows := hplus.append hspace
      rwa [List.append_nil] at hshows
  have hrest : Shows ("= " ++ figure total successes ++ remarks tag verdict) [] := by
    refine .nothing ?_
    simp [not_mem_figure (c := '(') (by decide) (by decide) total successes,
      not_mem_remarks (fun t ht => (htag t ht).2) verdict]
  have hshows := hparts.append hrest
  rw [hfaces, List.append_nil] at hshows
  rw [text_eq dice total successes (fun t ht => (htag t ht).1)]
  simpa [text, String.append_assoc] using hshows

end Tabletop.Breakdown
