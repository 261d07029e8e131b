/-
  The dice of a breakdown by kind, each of them once.

  1. **Kinds** — every kind stands once, so the dice of the kinds are all dice.
  2. **Lists** — a die whose marks can stand together is in just one of three lists: those that
     count, those dropped, those rerolled.  A die of hope or fear is in one of two, and where both
     are of one length, pairing them leaves none out.
  3. **Faces** — so the parts of a kind show every die of it once.
-/
import Tabletop.Proofs.Breakdown.Faces
import Tabletop.Proofs.Rolling.Conservation

namespace Tabletop

/-- A die as evaluations leave it: an ordinary one whose marks can stand together, or one with a
    role, which has no marks. -/
inductive Die.Laid (die : Die) : Prop where
  | ordinary (role : die.role = none) (coherent : die.Coherent)
  | special {role : String} (known : role ∈ Role.all) (role_eq : die.role = some role)
      (sides : die.sides ≠ .fate) (unmarked : die.Unmarked)

/-- The flags of a die as terms lay it fit together. -/
theorem Die.Laid.coherent {die : Die} (h : die.Laid) : die.Coherent := by
  cases h with
  | ordinary _ coherent => exact coherent
  | special _ _ _ unmarked => exact unmarked.coherent

namespace Breakdown

open Numeral

/-- The face of a die as a breakdown shows it: with its marks while it counts. -/
def shownFace (die : Die) : String := if die.active then markedFace die else face die

/-- Each die has its place in a breakdown of the dice: its kind, and there one of the lists. -/
structure Grouped (dice : List Die) : Prop where
  kinds : (kinds dice).Nodup
  groups : ((Breakdown.kinds dice).flatMap fun key => ofKind key dice).Perm dice
  lists : ∀ key, ((ofKind key dice).filter (·.active) ++ (ofKind key dice).filter (·.dropped) ++
    (ofKind key dice).filter (·.rerolled)).Perm (ofKind key dice)
  pairs : (facesOf Role.hope (ofKind pairKind dice)).length =
      (facesOf Role.fear (ofKind pairKind dice)).length ∧
    2 * (pairParts (ofKind pairKind dice)).length = (ofKind pairKind dice).length
  pools : ∀ role ∈ [Role.advantage, Role.disadvantage], role ∈ Breakdown.kinds dice →
    facesShown (poolPart role (ofKind role dice)) =
      (ofKind role dice).map fun die => decimal die.face
  faces : ∀ key ∈ Breakdown.kinds dice,
    ((partsOf key (ofKind key dice)).flatMap facesShown).Perm ((ofKind key dice).map shownFace)

/-! ## Kinds -/

/-- What two conditions without a common case select is selected by either of them. -/
theorem filter_append_filter_perm {p q : Die → Bool} {dice : List Die}
    (h : ∀ die ∈ dice, ¬ (p die = true ∧ q die = true)) :
    (dice.filter p ++ dice.filter q).Perm (dice.filter fun die => p die || q die) := by
  have hsplit := List.filter_append_perm p (dice.filter fun die => p die || q die)
  have hfirst : ∀ die ∈ dice, (p die && (p die || q die)) = p die := by
    intro die _
    cases p die <;> simp
  have hsecond : ∀ die ∈ dice, (!p die && (p die || q die)) = q die := by
    intro die hdie
    have := h die hdie
    cases hp : p die <;> cases hq : q die <;> simp_all
  rwa [List.filter_filter, List.filter_filter, List.filter_congr hfirst,
    List.filter_congr hsecond] at hsplit

/-- The dice of some kinds, kind by kind: induction on the kinds. -/
theorem flatMap_ofKind_perm {keys : List String} (hkeys : keys.Nodup) (dice : List Die) :
    (keys.flatMap fun key => ofKind key dice).Perm (dice.filter fun die => kind die ∈ keys) := by
  induction keys with
  | nil => simp
  | cons key keys ih =>
    obtain ⟨hkey, hnodup⟩ := List.nodup_cons.mp hkeys
    have hapart : ∀ die ∈ dice, ¬ ((kind die == key) = true ∧ decide (kind die ∈ keys) = true) := by
      rintro die - ⟨hkind, hmem⟩
      exact hkey (beq_iff_eq.mp hkind ▸ of_decide_eq_true hmem)
    have hall := filter_append_filter_perm hapart
    rw [List.flatMap_cons]
    refine ((ih hnodup).append_left _).trans (hall.trans (.of_eq (List.filter_congr ?_)))
    intro die _
    simp [beq_eq_decide]

/-- Every die is of one of the kinds: the groups hold all dice and no others. -/
theorem groups_perm (dice : List Die) :
    ((kinds dice).flatMap fun key => ofKind key dice).Perm dice := by
  refine (flatMap_ofKind_perm (Bindings.nodup_eraseDups _) dice).trans (.of_eq ?_)
  exact List.filter_eq_self.mpr fun die hdie => decide_eq_true (mem_kinds.mpr ⟨die, hdie, rfl⟩)

/-- The kind of ordinary dice is the size of the die, which is none of the words for roles. -/
theorem kind_ordinary {die : Die} (h : die.role = none) : kind die = "d" ++ die.sides.text := by
  simp [kind, Die.namedRole, h]

/-- A die with a role is of the kind of the pairs or of its pool. -/
theorem kind_special {die : Die} {role : String} (known : role ∈ Role.all)
    (h : die.role = some role) :
    kind die = if role = Role.hope ∨ role = Role.fear then pairKind else role := by
  have hnamed : role ≠ "" := by
    rintro rfl
    exact absurd known (by decide)
  have hsome : die.namedRole = some role := by
    rw [Die.namedRole, h]
    exact Option.filter_some_pos (bne_iff_ne.mpr hnamed)
  rw [kind, hsome]

/-- The size of a die is written with the characters of a number, or as one letter. -/
theorem eq_or_isFaceChar_of_mem_text {sides : Sides Int} {c : Char} (h : c ∈ sides.text.toList) :
    c = 'F' ∨ isFaceChar c = true := by
  cases sides with
  | faces n => exact Or.inr (isFaceChar_of_mem_decimal h)
  | fate => exact Or.inl (List.mem_singleton.mp h)

/-- Nothing in the word for a kind is taken for something else in a breakdown. -/
theorem not_mem_kinds {dice : List Die} (h : ∀ die ∈ dice, die.Laid) :
    ∀ key ∈ kinds dice, '(' ∉ key.toList ∧ '=' ∉ key.toList := by
  intro key hkey
  obtain ⟨die, hdie, rfl⟩ := mem_kinds.mp hkey
  cases h die hdie with
  | ordinary role =>
    have hsize : ∀ c : Char, c ≠ 'F' → isFaceChar c = false → c ∉ die.sides.text.toList := by
      intro c hc hface hmem
      rcases eq_or_isFaceChar_of_mem_text hmem with rfl | hchar
      · exact hc rfl
      · cases hface.symm.trans hchar
    rw [kind_ordinary role, String.toList_append]
    simp [hsize '(' (by decide) (by decide), hsize '=' (by decide) (by decide)]
  | special known role_eq =>
    rw [kind_special known role_eq]
    simp only [Role.all, List.mem_cons, List.not_mem_nil, or_false] at known
    rcases known with rfl | rfl | rfl | rfl <;> decide

/-- A die without a role is of no kind of Hope/Fear dice. -/
theorem kind_ne_of_role_none {die : Die} (h : die.role = none) :
    kind die ∉ [pairKind, Role.advantage, Role.disadvantage] := by
  have hletter : 'i' ∉ die.sides.text.toList := by
    intro hmem
    rcases eq_or_isFaceChar_of_mem_text hmem with h | h <;> exact absurd h (by decide)
  rw [kind_ordinary h]
  have hhead : ∀ word : String, "d" ++ die.sides.text = word →
      'd' :: die.sides.text.toList = word.toList := by
    rintro word rfl
    simp
  simp only [List.mem_cons, List.not_mem_nil, or_false, not_or]
  refine ⟨fun heq => ?_, fun heq => ?_, fun heq => ?_⟩
  · exact absurd (List.cons.inj (hhead _ heq)).1 (by decide)
  · exact absurd (List.cons.inj (hhead _ heq)).1 (by decide)
  · -- The word begins as a size does, but goes on otherwise.
    rw [(List.cons.inj (hhead _ heq)).2] at hletter
    exact hletter (by decide)

/-- Of a kind that is a word for roles there are special dice only. -/
theorem special_of_kind {die : Die} (h : die.Laid)
    (hkind : kind die ∈ [pairKind, Role.advantage, Role.disadvantage]) :
    die.sides ≠ .fate ∧ die.Unmarked := by
  cases h with
  | ordinary role => exact absurd hkind (kind_ne_of_role_none role)
  | special known role_eq sides unmarked => exact ⟨sides, unmarked⟩

/-- The dice of hope and fear are one kind. -/
theorem kind_eq_pairKind_iff {die : Die} (h : die.Laid) :
    kind die = pairKind ↔ die.role = some Role.hope ∨ die.role = some Role.fear := by
  cases h with
  | ordinary role =>
    refine iff_of_false (fun hkind => ?_) (by simp [role])
    exact kind_ne_of_role_none role (hkind ▸ List.mem_cons_self)
  | special known role_eq =>
    rw [kind_special known role_eq, role_eq]
    simp only [Role.all, List.mem_cons, List.not_mem_nil, or_false] at known
    rcases known with rfl | rfl | rfl | rfl <;> decide

/-! ## Lists -/

/-- Of dice whose marks can stand together, each counts, was dropped or was rerolled. -/
theorem lists_perm {dice : List Die} (h : ∀ die ∈ dice, die.Coherent) :
    (dice.filter (·.active) ++ dice.filter (·.dropped) ++ dice.filter (·.rerolled)).Perm dice := by
  have hdropped : ∀ die ∈ dice, ¬ (die.active = true ∧ die.dropped = true) := by
    rintro die - ⟨hactive, hdropped⟩
    simp [Die.active, hdropped] at hactive
  have hrerolled : ∀ die ∈ dice,
      ¬ ((die.active || die.dropped) = true ∧ die.rerolled = true) := by
    rintro die hdie ⟨hkept, hrerolled⟩
    have honce := (h die hdie).once
    simp_all [Die.active]
  refine ((filter_append_filter_perm hdropped).append_right _).trans
    ((filter_append_filter_perm hrerolled).trans (.of_eq (List.filter_eq_self.mpr ?_)))
  intro die _
  cases hdie : die.dropped <;> cases hdie' : die.rerolled <;> simp [Die.active, hdie, hdie']

/-- Dice of hope and fear stand in one of two lists. -/
theorem roles_perm {dice : List Die} (h : ∀ die ∈ dice, die.Laid) :
    ((ofKind pairKind dice).filter (·.role == some Role.hope) ++
      (ofKind pairKind dice).filter (·.role == some Role.fear)).Perm (ofKind pairKind dice) := by
  have hapart : ∀ die ∈ ofKind pairKind dice,
      ¬ ((die.role == some Role.hope) = true ∧ (die.role == some Role.fear) = true) := by
    rintro die - ⟨hhope, hfear⟩
    rw [beq_iff_eq.mp hhope] at hfear
    exact absurd hfear (by decide)
  refine (filter_append_filter_perm hapart).trans (.of_eq (List.filter_eq_self.mpr ?_))
  intro die hdie
  obtain ⟨hmem, hkind⟩ := List.mem_filter.mp hdie
  simpa using (kind_eq_pairKind_iff (h die hmem)).mp (beq_iff_eq.mp hkind)

/-- The group of hope and fear has all dice with these roles. -/
theorem facesOf_ofKind {role : String} (hrole : role = Role.hope ∨ role = Role.fear)
    {dice : List Die} (h : ∀ die ∈ dice, die.Laid) :
    facesOf role (ofKind pairKind dice) = facesOf role dice := by
  rw [facesOf, facesOf, ofKind, List.filter_filter]
  refine congrArg _ (List.filter_congr fun die hdie => ?_)
  cases hsame : die.role == some role with
  | false => rfl
  | true =>
    have hkind : kind die = pairKind := by
      refine (kind_eq_pairKind_iff (h die hdie)).mpr ?_
      rw [beq_iff_eq.mp hsame]
      exact hrole.imp (congrArg some) (congrArg some)
    rw [hkind, beq_self_eq_true, Bool.and_true]

/-! ## Faces -/

/-- A die without marks shows its number, if it is no Fate die. -/
theorem shownFace_of_unmarked {die : Die} (hsides : die.sides ≠ .fate) (h : die.Unmarked) :
    shownFace die = decimal die.face := by
  obtain ⟨hexploded, hdropped, hrerolled, hsuccess⟩ := h
  simp [shownFace, Die.active, hdropped, hrerolled, markedFace, hexploded, hsuccess, face, hsides]

/-- The items of two lists of one length, in pairs: induction on both. -/
theorem flatMap_zip_perm {α : Type} (f : Int → α) {hopes fears : List Int}
    (h : hopes.length = fears.length) :
    ((hopes.zip fears).flatMap fun pair => [f pair.1, f pair.2]).Perm
      (hopes.map f ++ fears.map f) := by
  induction hopes generalizing fears with
  | nil =>
    cases fears with
    | nil => rfl
    | cons fear fears => cases h
  | cons hope hopes ih =>
    cases fears with
    | nil => cases h
    | cons fear fears =>
      have hrest := ih (Nat.succ.inj h)
      rw [List.zip_cons_cons, List.flatMap_cons, List.map_cons, List.map_cons, List.cons_append]
      refine .cons _ ((hrest.cons _).trans ?_)
      exact List.perm_middle.symm

/-- Every die of a kind has its face in the parts of that kind. -/
theorem facesIn_perm {dice : List Die} (h : ∀ die ∈ dice, die.Laid)
    (hpairs : (facesOf Role.hope dice).length = (facesOf Role.fear dice).length) (key : String) :
    (facesIn key (ofKind key dice)).Perm ((ofKind key dice).map shownFace) := by
  have hmem : ∀ die ∈ ofKind key dice, die.Laid ∧ kind die = key := fun die hdie =>
    ⟨h die (List.mem_filter.mp hdie).1, beq_iff_eq.mp (List.mem_filter.mp hdie).2⟩
  have hspecial : key ∈ [pairKind, Role.advantage, Role.disadvantage] →
      ∀ die ∈ ofKind key dice, shownFace die = decimal die.face := by
    intro hkey die hdie
    obtain ⟨hlaid, rfl⟩ := hmem die hdie
    obtain ⟨hsides, hunmarked⟩ := special_of_kind hlaid hkey
    exact shownFace_of_unmarked hsides hunmarked
  rw [facesIn]
  split_ifs with hpair hpool
  · -- Of hope and fear the faces stand in pairs, but the dice in order.
    subst hpair
    have hfaces := hspecial (by simp)
    rw [← facesOf_ofKind (Or.inl rfl) h, ← facesOf_ofKind (Or.inr rfl) h] at hpairs
    refine (flatMap_zip_perm decimal hpairs).trans ?_
    rw [List.map_congr_left hfaces]
    have hroles := (roles_perm h).map fun die => decimal die.face
    rw [List.map_append] at hroles
    simp only [facesOf, List.map_map]
    exact hroles
  · have hfaces := hspecial (by simpa using Or.inr hpool)
    rw [List.map_congr_left hfaces]
  · -- Only dice that count are shown with their marks.
    have hlists := (lists_perm fun die hdie => (hmem die hdie).1.coherent).map shownFace
    have hactive : ∀ die ∈ (ofKind key dice).filter (·.active), markedFace die = shownFace die :=
      fun die hdie => (if_pos (List.mem_filter.mp hdie).2).symm
    have hdropped : ∀ die ∈ (ofKind key dice).filter (·.dropped), face die = shownFace die := by
      intro die hdie
      exact (if_neg (by simp [Die.active, (List.mem_filter.mp hdie).2])).symm
    have hrerolled : ∀ die ∈ (ofKind key dice).filter (·.rerolled), face die = shownFace die := by
      intro die hdie
      exact (if_neg (by simp [Die.active, (List.mem_filter.mp hdie).2])).symm
    rwa [List.map_congr_left hactive, List.map_congr_left hdropped,
      List.map_congr_left hrerolled, ← List.map_append, ← List.map_append]

/-! ## Groups -/

/-- With as many dice of hope as of fear, dice that an evaluation left are grouped. -/
theorem grouped_of_laid {dice : List Die} (h : ∀ die ∈ dice, die.Laid)
    (hpairs : (facesOf Role.hope dice).length = (facesOf Role.fear dice).length) :
    Grouped dice where
  kinds := Bindings.nodup_eraseDups _
  groups := groups_perm dice
  lists := fun key => lists_perm fun die hdie => (h die (List.mem_filter.mp hdie).1).coherent
  pairs := by
    have hroles := (roles_perm h).length_eq
    have hsame : (facesOf Role.hope (ofKind pairKind dice)).length =
        (facesOf Role.fear (ofKind pairKind dice)).length := by
      rwa [facesOf_ofKind (Or.inl rfl) h, facesOf_ofKind (Or.inr rfl) h]
    refine ⟨hsame, ?_⟩
    rw [pairParts, List.length_zipWith, ← hsame, Nat.min_self, ← hroles, List.length_append]
    simp only [facesOf, List.length_map] at hsame ⊢
    omega
  pools := fun role _ hrole =>
    (shows_poolPart (not_mem_kinds h role hrole).1 (ofKind_ne_nil hrole)).facesShown_eq
  faces := by
    intro key hkey
    rw [(allShow_partsOf (not_mem_kinds h key hkey).1 (ofKind_ne_nil hkey)).faces]
    exact facesIn_perm h hpairs key

/-- Such dice are shown once each, whatever else is written. -/
theorem facesShown_text_perm {dice : List Die} (h : ∀ die ∈ dice, die.Laid)
    (hpairs : (facesOf Role.hope dice).length = (facesOf Role.fear dice).length) (total : Int)
    (successes : Option Int) {tag : Option String} (htag : ∀ t ∈ tag, t ≠ "" ∧ '(' ∉ t.toList)
    (verdict : Option Verdict) :
    (facesShown (text dice total successes tag verdict)).Perm (dice.map shownFace) := by
  have hkeys := fun key hkey => (not_mem_kinds h key hkey).1
  rw [(shows_text hkeys total successes htag verdict).facesShown_eq]
  refine (List.Perm.flatMap_left _ fun key _ => facesIn_perm h hpairs key).trans ?_
  rw [← List.map_flatMap]
  exact (groups_perm dice).map shownFace

end Breakdown

end Tabletop
