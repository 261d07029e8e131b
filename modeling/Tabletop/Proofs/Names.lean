/-
  The names in an expression.

  `NamedAll P` says that every variable a roll of an expression may look up has a name that passes
  `P`, and that no part of the expression is missing.  It holds of every expression that tokens
  derive, if the names of these tokens pass `P`; and the names of the tokens of a text are in upper
  case.
-/
import Tabletop.Proofs.Grammar
import Tabletop.Proofs.Notation.Lexeme
import Tabletop.Proofs.Text.Upper

namespace Tabletop

open Grammar

/-- Every name in an operand passes `P`. -/
def Named (P : String → Prop) : Operand → Prop
  | .number _ => True
  | .named name => P name

/-- Every name in the size of a die passes `P`. -/
def NamedSides (P : String → Prop) : Sides Operand → Prop
  | .faces x => Named P x
  | .fate => True

/-- Every name in a modifier passes `P`. -/
def NamedIn (P : String → Prop) : Modifier → Prop
  | .reroll m => Named P m.threshold
  | .explosion m => ∀ x ∈ m.threshold, Named P x
  | .selection m => Named P m.count
  | .successCheck m => Named P m.threshold

/-- Every name that a roll of the expression may look up passes `P`, and no part of it is
    missing.  The modifiers of a Hope/Fear roll look up nothing. -/
def NamedAll (P : String → Prop) : Expr → Prop
  | .number _ => True
  | .named name => P name
  | .dice count sides modifiers =>
    Named P count ∧ NamedSides P sides ∧ ∀ m ∈ modifiers, NamedIn P m
  | .hopeFear advantage disadvantage _ => Named P advantage ∧ Named P disadvantage
  | .binary _ left right => NamedAll P left ∧ NamedAll P right
  | .target inner _ threshold => NamedAll P inner ∧ Named P threshold
  | .missing => False

/-! ## Names of every kind -/

/-- Where every name passes, those in an operand do. -/
theorem named_any (operand : Operand) : Named (fun _ => True) operand := by
  cases operand <;> trivial

theorem namedSides_any (sides : Sides Operand) : NamedSides (fun _ => True) sides := by
  cases sides with
  | faces operand => exact named_any operand
  | fate => trivial

theorem namedIn_any (m : Modifier) : NamedIn (fun _ => True) m := by
  cases m with
  | explosion m => exact fun operand _ => named_any operand
  | _ => exact named_any _

/-! ## Names that tokens derive -/

variable {P : String → Prop}

/-- The names of the tokens pass `P`. -/
def NamesPass (P : String → Prop) (ts : List Token) : Prop :=
  ∀ t ∈ ts, ∀ x, IsOperand t x → Named P x

/-- The names of tokens pass if they pass in both parts. -/
theorem namesPass_append {ls rs : List Token} :
    NamesPass P (ls ++ rs) ↔ NamesPass P ls ∧ NamesPass P rs := by
  simp only [NamesPass, List.mem_append, or_imp, forall_and]

/-- The names of tokens pass if that of the first does and those of the others do. -/
theorem namesPass_cons {t : Token} {ts : List Token} :
    NamesPass P (t :: ts) ↔ (∀ x, IsOperand t x → Named P x) ∧ NamesPass P ts := by
  simp only [NamesPass, List.forall_mem_cons]

/-- The names in a modifier are those of its tokens. -/
theorem namedIn_of_isModifier {ts : List Token} {m : Modifier} (h : IsModifier ts m)
    (hp : NamesPass P ts) : NamedIn P m := by
  cases h with
  | selection _ _ count => exact hp _ (by simp) _ count
  | explosion _ _ threshold =>
    rintro x ⟨⟩
    exact hp _ (by simp) _ threshold
  | bareReroll _ _ threshold => exact hp _ (by simp) _ threshold
  | reroll _ _ _ threshold => exact hp _ (by simp) _ threshold
  | successCheck _ threshold => exact hp _ (by simp) _ threshold

/-- The names in modifiers are those of their tokens. -/
theorem namedIn_of_modifiers {ts : List Token} {ms : List Modifier} (h : Modifiers ts ms)
    (hp : NamesPass P ts) : ∀ m ∈ ms, NamedIn P m := by
  induction h with
  | nil => simp
  | cons head _ ih =>
    rw [namesPass_append] at hp
    rw [List.forall_mem_cons]
    exact ⟨namedIn_of_isModifier head hp.1, ih hp.2⟩
  | bareExplosion _ _ _ ih =>
    rw [namesPass_cons] at hp
    rw [List.forall_mem_cons]
    exact ⟨nofun, ih hp.2⟩

/-- The count of a pool is one that was given for it, or 0. -/
theorem named_countOf {ts : List Token} {items : List (Pool × Operand)} (h : Pools ts items)
    (hp : NamesPass P ts) (pool : Pool) : Named P (countOf pool items) := by
  have hitems : ∀ item ∈ items, Named P item.2 := by
    induction h with
    | nil => simp
    | cons _ count _ ih =>
      rw [namesPass_cons, namesPass_cons] at hp
      rw [List.forall_mem_cons]
      exact ⟨hp.2.1 _ count, ih hp.2.2⟩
  unfold countOf
  cases hlookup : items.reverse.lookup pool with
  | none => trivial
  | some x => exact hitems _ (List.mem_reverse.mp (mem_of_lookup hlookup))

/-- The names in a dice term are those of its tokens. -/
theorem namedAll_of_dice {ts : List Token} {e : Expr} (h : Dice ts e) (hp : NamesPass P ts) :
    NamedAll P e := by
  have hcount : ∀ {cs : List Token} {count : Operand}, Count cs count → NamesPass P cs →
      Named P count := by
    intro cs count hcs hp
    cases hcs with
    | implicit => trivial
    | written operand => exact hp _ List.mem_cons_self _ operand
  cases h with
  | hopeFear _ pools _ =>
    rw [namesPass_cons, namesPass_append] at hp
    exact ⟨named_countOf pools hp.2.1 .advantage, named_countOf pools hp.2.1 .disadvantage⟩
  | sized head _ size tail =>
    rw [namesPass_append, namesPass_cons, namesPass_cons] at hp
    exact ⟨hcount head hp.1, hp.2.2.1 _ size, namedIn_of_modifiers tail hp.2.2.2⟩
  | fate head _ tail =>
    rw [namesPass_append, namesPass_cons] at hp
    exact ⟨hcount head hp.1, trivial, namedIn_of_modifiers tail hp.2.2⟩

/-- Induction on the derivation. -/
theorem namedAll_of_derives {phrase : Phrase} {ts : List Token} {e : Expr}
    (h : Derives phrase ts e) (hp : NamesPass P ts) : NamedAll P e := by
  induction h with
  | number _ => trivial
  | named operand => exact hp _ List.mem_cons_self _ operand
  | parens _ _ _ ih =>
    rw [namesPass_cons, namesPass_append] at hp
    exact ih hp.2.1
  | dice term => exact namedAll_of_dice term hp
  | ofFactor _ ih => exact ih hp
  | product _ _ _ _ ihl ihr =>
    rw [namesPass_append, namesPass_cons] at hp
    exact ⟨ihl hp.1, ihr hp.2.2⟩
  | ofProduct _ ih => exact ih hp
  | sum _ _ _ _ ihl ihr =>
    rw [namesPass_append, namesPass_cons] at hp
    exact ⟨ihl hp.1, ihr hp.2.2⟩

/-- The names in an expression are those of the sentence that it is read from. -/
theorem namedAll_of_sentence {ts : List Token} {e : Expr} (h : Sentence ts e)
    (hp : NamesPass P ts) : NamedAll P e := by
  cases h with
  | plain only => exact namedAll_of_derives only hp
  | target inner _ _ threshold =>
    rw [namesPass_append] at hp
    exact ⟨namedAll_of_derives inner hp.1, hp.2 _ (by simp) _ threshold⟩

/-! ## Names in a text -/

/-- A name that is in upper case. -/
def InUpperCase (name : String) : Prop := Text.uppered name = name

/-- What a token of a text names is in upper case. -/
theorem namesPass_of_wellFormed {ts : List Token} (h : ∀ t ∈ ts, t.WellFormed) :
    NamesPass InUpperCase ts := by
  intro t ht x hx
  cases hx with
  | number _ => trivial
  | named kind =>
    have hw := h t ht
    rw [Token.WellFormed, kind] at hw
    obtain ⟨name, htext, hname⟩ := hw
    show Text.uppered _ = _
    rw [Text.uppered, String.toList_ofList, htext, List.drop_one, List.tail_cons,
      Text.upper_upper fun c hc => Text.toNat_lt_of_isNameChar (hname c hc)]

end Tabletop
