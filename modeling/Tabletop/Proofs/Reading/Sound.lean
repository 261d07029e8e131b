/-
  Readers are sound: what a reader takes derives what it gives.

  One lemma for each reader, in the order of the readers themselves.  A repetition is sound however
  many rounds it is given, since stopping early leaves a shorter phrase of the same kind; and a
  factor is sound whichever of its two attempts gives it, since both are factors of the grammar.
  Nesting is counted on the way: an atom that may open a parenthesis leaves room for one less.
-/
import Tabletop.Proofs.Grammar
import Tabletop.Proofs.Numeral
import Tabletop.Proofs.Reading.Basic
import Tabletop.Proofs.Text.Upper

namespace Tabletop.Reader

open Grammar

variable {c : Cursor}

/-! ## Operands -/

/-- A token of the expected kind is passed. -/
theorem expect_of_kind {kind : TokenKind} (h : c.current.kind = kind) :
    expect kind c = .ok c.current c.next := by
  show (if c.current.kind = kind then take else refuse (.expected kind) c.current : Reader _) c = _
  rw [if_pos h]
  rfl

/-- A token of another kind is refused. -/
theorem expect_of_kind_ne {kind : TokenKind} (h : c.current.kind ≠ kind) :
    expect kind c = refuse (.expected kind) c.current c := by
  show (if c.current.kind = kind then take else refuse (.expected kind) c.current : Reader _) c = _
  rw [if_neg h]

/-- A token of a kind that is no operand. -/
theorem expect_reads (hc : c.WellFormed) {kind : TokenKind}
    (hk : kind ∉ [.finish, .number, .named]) :
    Reads c (fun used t => used = [t] ∧ t.kind = kind ∧ t.WellFormed) (expect kind c) := by
  by_cases h : c.current.kind = kind
  · rw [expect_of_kind h]
    subst h
    have hf : c.current.kind ≠ .finish := fun h => hk (by simp [h])
    have hu : c.unread = [c.current] ++ c.next.unread := hc.unread_eq hf
    exact .ok hu c.next_last (by simpa using Token.withinLimits_of_kind hk)
      ⟨rfl, rfl, hc.current hf⟩
  · rw [expect_of_kind_ne h]
    exact .refuse c.current_mem_ahead

/-- A number within the limit of its length is the value of its digits. -/
theorem number_of_kind (hc : c.WellFormed) (h : c.current.kind = .number)
    (hlen : c.current.text.length ≤ numberLengthLimit) :
    number c = .ok (Nat.ofDigitChars 10 c.current.text.toList 0 : Nat) c.next := by
  have hw := hc.current (by simp [h])
  rw [Token.WellFormed, h] at hw
  have hread := Numeral.read?_of_digits hw.1 hw.2
    (by rw [String.length_toList]; exact Nat.le_trans hlen (by decide))
  rw [number, Run.bind_of_ok (expect_of_kind h), if_neg (by omega), hread]
  rfl

/-- A number that is read is what one token writes. -/
theorem number_reads (hc : c.WellFormed) :
    Reads c (fun used n => ∃ t, used = [t] ∧ IsOperand t (.number n)) (number c) := by
  by_cases h : c.current.kind = .number
  · by_cases hlen : c.current.text.length ≤ numberLengthLimit
    · rw [number_of_kind hc h hlen]
      have hu : c.unread = [c.current] ++ c.next.unread := hc.unread_eq (by simp [h])
      refine .ok hu c.next_last ?_ ⟨c.current, rfl, .number h⟩
      simpa using ⟨fun _ => hlen, fun hv => by simp [h] at hv⟩
    · rw [number, Run.bind_of_ok (expect_of_kind h), if_pos (by omega)]
      exact .error c.current_mem_ahead
  · rw [number, Run.bind_of_error (expect_of_kind_ne h)]
    exact .error c.current_mem_ahead

/-- A name is empty in upper case only where nothing follows the mark. -/
theorem upper_name_ne_nil {cs : List Char} (h : ∀ d ∈ cs, Text.isNameChar d = true)
    (hne : cs ≠ []) : Text.upper cs ≠ [] := by
  obtain ⟨d, cs, rfl⟩ := List.exists_cons_of_ne_nil hne
  have hascii := Text.toNat_lt_of_isNameChar (h d List.mem_cons_self)
  simp [Text.upper, Text.upperChar, hascii]

/-- A variable with a name is that name in upper case. -/
theorem name_of_kind (hc : c.WellFormed) (h : c.current.kind = .named)
    (hne : c.current.text ≠ "@") :
    name c = .ok (String.ofList (Text.upper (c.current.text.toList.drop 1))) c.next := by
  have hw := hc.current (by simp [h])
  rw [Token.WellFormed, h] at hw
  obtain ⟨cs, htext, hcs⟩ := hw
  have hcs' : cs ≠ [] := by
    rintro rfl
    exact hne (by rw [← String.ofList_toList (s := c.current.text), htext])
  obtain ⟨u, us, hup⟩ := List.exists_cons_of_ne_nil (upper_name_ne_nil hcs hcs')
  rw [name, Run.bind_of_ok (expect_of_kind h), htext, List.drop_one, List.tail_cons, hup]
  rfl

/-- A name that is read is what one token writes. -/
theorem name_reads (hc : c.WellFormed) :
    Reads c (fun used n => ∃ t, used = [t] ∧ IsOperand t (.named n)) (name c) := by
  by_cases h : c.current.kind = .named
  · by_cases hne : c.current.text = "@"
    · rw [name, Run.bind_of_ok (expect_of_kind h), hne]
      exact .error c.current_mem_ahead
    · rw [name_of_kind hc h hne]
      have hu : c.unread = [c.current] ++ c.next.unread := hc.unread_eq (by simp [h])
      refine .ok hu c.next_last ?_ ⟨c.current, rfl, .named h⟩
      simpa using ⟨fun hn => by simp [h] at hn, fun _ => hne⟩
  · rw [name, Run.bind_of_error (expect_of_kind_ne h)]
    exact .error c.current_mem_ahead

/-- An operand is told by the kind of its token. -/
theorem operand_run (c : Cursor) :
    operand c = (match c.current.kind with
      | .number => .number <$> number
      | .named => .named <$> name
      | _ => refuse .operandMissing c.current : Reader Operand) c :=
  rfl

/-- An operand that is read is what one token writes. -/
theorem operand_reads (hc : c.WellFormed) :
    Reads c (fun used x => ∃ t, used = [t] ∧ IsOperand t x) (operand c) := by
  rw [operand_run]
  cases c.current.kind
  case number => exact (number_reads hc).map hc fun _ _ h => h
  case named => exact (name_reads hc).map hc fun _ _ h => h
  all_goals exact .refuse c.current_mem_ahead

/-! ## Comparisons -/

/-- The text of a comparison token is that of a comparison. -/
theorem comparison_of_wellFormed {t : Token} (ht : t.WellFormed) (hk : t.kind = .comparison) :
    ∃ op, IsComparison t op ∧ comparison t = pure op := by
  rw [Token.WellFormed, hk] at ht
  obtain ⟨op, hop⟩ := ht
  refine ⟨op, ⟨hk, hop⟩, ?_⟩
  rw [comparison, hop, Comparison.ofSymbol?_symbol]

/-- A comparison is taken where one stands, and else nothing is. -/
theorem comparison?_reads (hc : c.WellFormed) :
    Reads c (fun used o =>
      (used = [] ∧ o = none ∧ c.current.kind ≠ .comparison) ∨
        ∃ t op, used = [t] ∧ o = some op ∧ IsComparison t op) (comparison? c) := by
  show Reads c _ ((if c.current.kind = .comparison then
    take >>= fun t => some <$> comparison t else pure none : Reader _) c)
  by_cases hk : c.current.kind = .comparison
  · rw [if_pos hk]
    obtain ⟨op, hop, hcmp⟩ := comparison_of_wellFormed (hc.current (by simp [hk])) hk
    refine .take_bind hc (by simp [hk]) fun c' _ => ?_
    rw [hcmp, map_pure]
    exact .pure (Or.inr ⟨_, op, rfl, rfl, hop⟩)
  · rw [if_neg hk]
    exact .pure (Or.inl ⟨rfl, rfl, hk⟩)

/-! ## Modifiers -/

/-- Every word of a modifier asks for something. -/
theorem exists_request {word : String} (h : word ∈ modifierWords) :
    ∃ request, requests.lookup word = some request := by
  simp only [modifierWords, List.mem_cons, List.not_mem_nil, or_false] at h
  rcases h with rfl | rfl | rfl | rfl | rfl | rfl | rfl | rfl
  all_goals exact ⟨_, rfl⟩

/-- The words that ask for a selection are those of the grammar. -/
theorem selection_of_lookup {word : String} {action : SelectionAction} {extreme : Extreme}
    (h : requests.lookup word = some (.selection action extreme)) :
    (word, action, extreme) ∈ selectionWords := by
  simpa [requests, selectionWords] using mem_of_lookup h

theorem explosion_of_lookup {word : String} (h : requests.lookup word = some .explosion) :
    word = "!" := by
  simpa [requests] using mem_of_lookup h

theorem reroll_of_lookup {word : String} {mode : RerollMode}
    (h : requests.lookup word = some (.reroll mode)) : (word, mode) ∈ rerollWords := by
  simpa [requests, rerollWords] using mem_of_lookup h

/-- What a modifier is once its first token was taken: that token and those taken after it make it,
    or it is a bare explosion, which no comparison follows. -/
def ModifierFrom (c : Cursor) (t : Token) (used : List Token) (m : Modifier) : Prop :=
  IsModifier (t :: used) m ∨
    (used = [] ∧ IsWord t "!" ∧ m = .explosion ⟨.ge, none, none⟩ ∧ c.current.kind ≠ .comparison)

/-- An operand completes what was read before it. -/
theorem operand_completes {α : Type} (hc : c.WellFormed) {f : Operand → α}
    {E : List Token → α → Prop} (h : ∀ t x, IsOperand t x → E [t] (f x)) :
    Reads c E ((operand >>= fun x => pure (f x) : Reader α) c) := by
  refine .bind hc (operand_reads hc) ?_
  rintro used x c' - - ⟨t, rfl, hx⟩
  exact .pure (h t x hx)

/-- A modifier that is read behind its word is one of the grammar, with that word. -/
theorem modifier_reads (hc : c.WellFormed) {t : Token} (ht : t.WellFormed)
    (hk : t.kind = .modifier ∨ t.kind = .comparison) :
    Reads c (ModifierFrom c t) (modifier t c) := by
  unfold modifier
  by_cases hcmp : t.kind = .comparison
  · rw [if_pos hcmp]
    obtain ⟨op, hop, heq⟩ := comparison_of_wellFormed ht hcmp
    rw [heq, pure_bind]
    exact operand_completes hc fun o x hx => Or.inl (.successCheck hop hx)
  · rw [if_neg hcmp]
    have hmod := hk.resolve_right hcmp
    rw [Token.WellFormed, hmod] at ht
    obtain ⟨request, hreq⟩ := exists_request ht
    rw [hreq]
    cases request with
    | selection action extreme =>
      have hword := selection_of_lookup hreq
      exact operand_completes hc fun o x hx => Or.inl (.selection hword ⟨hmod, rfl⟩ hx)
    | explosion =>
      have hword : IsWord t "!" := ⟨hmod, explosion_of_lookup hreq⟩
      refine .bind hc (comparison?_reads hc) ?_
      rintro used o c' - hc' (⟨rfl, rfl, hbare⟩ | ⟨u, op, rfl, rfl, hop⟩)
      · exact .pure (Or.inr ⟨rfl, hword, rfl, hbare⟩)
      · exact operand_completes hc' fun o x hx => Or.inl (.explosion hword hop hx)
    | reroll mode =>
      have hword := reroll_of_lookup hreq
      refine .bind hc (comparison?_reads hc) ?_
      rintro used o c' - hc' (⟨rfl, rfl, -⟩ | ⟨u, op, rfl, rfl, hop⟩)
      · exact operand_completes hc' fun o x hx => Or.inl (.bareReroll hword ⟨hmod, rfl⟩ hx)
      · exact operand_completes hc' fun o x hx => Or.inl (.reroll hword ⟨hmod, rfl⟩ hop hx)

/-- What begins the tokens unread is the token at the cursor. -/
theorem current_of_mem_head? {rest : List Token} {u : Token} (hp : rest <+: c.unread)
    (hu : u ∈ rest.head?) : c.current = u := by
  obtain ⟨more, hmore⟩ := hp
  cases rest with
  | nil => cases hu
  | cons v rest =>
    cases hu
    rw [Cursor.current, ← hmore]
    rfl

/-- Induction on the rounds; that a bare explosion is followed by no comparison is seen at the
    cursor where the modifiers after it begin. -/
theorem modifiersFrom_reads (rounds : List Token) :
    ∀ c : Cursor, c.WellFormed → Reads c Modifiers (modifiersFrom rounds c) := by
  induction rounds with
  | nil =>
    intro c hc
    exact .pure .nil
  | cons _ rounds ih =>
    intro c hc
    show Reads c _ ((if c.current.kind = .modifier ∨ c.current.kind = .comparison then
      take >>= fun t => modifier t >>= fun m => modifiersFrom rounds >>= fun more =>
        pure (m :: more) else pure [] : Reader _) c)
    by_cases hk : c.current.kind = .modifier ∨ c.current.kind = .comparison
    · rw [if_pos hk]
      have hf : c.current.kind ≠ .finish := by rcases hk with hk | hk <;> simp [hk]
      refine .take_bind hc (by rcases hk with hk | hk <;> simp [hk]) fun c₁ hc₁ => ?_
      refine .bind hc₁ (modifier_reads hc₁ (hc.current hf) hk) ?_
      intro used m c₂ hu₁ hc₂ hm
      -- The modifiers behind a bare explosion begin at its cursor, so their tokens come along.
      have htail : Reads c₂ (fun rest ms => rest <+: c₂.unread ∧ Modifiers rest ms)
          (modifiersFrom rounds c₂) := (ih c₂ hc₂).mono fun _ _ hp hms => ⟨hp, hms⟩
      refine .bind hc₂ htail ?_
      rintro rest ms c₃ - - ⟨hp, hms⟩
      refine .pure ?_
      rw [List.append_nil]
      rcases hm with hm | ⟨rfl, hword, rfl, hbare⟩
      · show Modifiers ((c.current :: used) ++ rest) _
        exact .cons hm hms
      · refine .bareExplosion hword ?_ hms
        intro u hmem
        have hp' : rest <+: c₁.unread := by
          rw [hu₁]
          exact hp
        rw [← current_of_mem_head? hp' hmem]
        exact hbare
    · rw [if_neg hk]
      exact .pure .nil

theorem modifiers_reads (hc : c.WellFormed) : Reads c Modifiers (modifiers c) :=
  modifiersFrom_reads c.unread c hc

/-! ## Dice -/

/-- Counts that were given so far, and those that come: the last one stands. -/
theorem latest_cons (pool other : Pool) (x y : Operand) (items : List (Pool × Operand)) :
    (((other, x) :: items).reverse.lookup pool).getD y =
      (items.reverse.lookup pool).getD (if pool = other then x else y) := by
  rw [List.reverse_cons, List.lookup_append]
  cases items.reverse.lookup pool with
  | some z => rfl
  | none =>
    by_cases h : pool = other
    · simp [h]
    · simp [List.lookup_cons, beq_false_of_ne h, h]

/-- A pool is told by the kind of its token. -/
theorem poolsFrom_cons_run (a d : Operand) (round : Token) (rounds : List Token) (c : Cursor) :
    poolsFrom a d (round :: rounds) c = (match c.current.kind with
      | .advantage => take >>= fun _ => operand >>= fun x => poolsFrom x d rounds
      | .dice => take >>= fun _ => operand >>= fun x => poolsFrom a x rounds
      | _ => pure (a, d) : Reader _) c :=
  rfl

/-- Pools that are read are those of the grammar, and of each one the last count is kept: induction
    on the rounds. -/
theorem poolsFrom_reads (rounds : List Token) :
    ∀ (c : Cursor) (a d : Operand), c.WellFormed →
      Reads c (fun used r => ∃ items, Pools used items ∧
        r = ((items.reverse.lookup .advantage).getD a,
          (items.reverse.lookup .disadvantage).getD d)) (poolsFrom a d rounds c) := by
  induction rounds with
  | nil =>
    intro c a d hc
    exact .pure ⟨[], .nil, rfl⟩
  | cons _ rounds ih =>
    intro c a d hc
    -- One more pool, whichever it is: its count replaces the one so far.
    have step : ∀ pool : Pool, c.current.kind = pool.kind →
        Reads c (fun used r => ∃ items, Pools used items ∧
          r = ((items.reverse.lookup .advantage).getD a,
            (items.reverse.lookup .disadvantage).getD d))
          ((take >>= fun _ => operand >>= fun x =>
            poolsFrom (if .advantage = pool then x else a)
              (if .disadvantage = pool then x else d) rounds : Reader _) c) := by
      intro pool hk
      have hk' : c.current.kind = .advantage ∨ c.current.kind = .dice := by
        cases pool <;> simp [hk, Pool.kind]
      refine .take_bind hc (by rcases hk' with hk | hk <;> simp [hk]) fun c₁ hc₁ => ?_
      refine .bind hc₁ (operand_reads hc₁) ?_
      rintro used x c₂ - hc₂ ⟨o, rfl, hx⟩
      refine (ih c₂ _ _ hc₂).mono ?_
      rintro rest r - ⟨items, hitems, rfl⟩
      refine ⟨(pool, x) :: items, .cons hk hx hitems, ?_⟩
      rw [latest_cons, latest_cons]
    rw [poolsFrom_cons_run]
    cases hk : c.current.kind
    case advantage => exact step .advantage hk
    case dice => exact step .disadvantage hk
    all_goals exact .pure ⟨[], .nil, rfl⟩

/-- A Hope/Fear roll that is read is one of the grammar. -/
theorem hopeFear_reads (hc : c.WellFormed) :
    Reads c Dice (hopeFear c) := by
  refine .bind hc (expect_reads hc (by decide)) ?_
  rintro used t c₁ - hc₁ ⟨rfl, hk, -⟩
  show Reads c₁ _ ((poolsFrom (.number 0) (.number 0) c₁.unread >>= fun pools =>
    modifiers >>= fun ms => pure (.hopeFear pools.1 pools.2 ms) : Reader Expr) c₁)
  refine .bind hc₁ (poolsFrom_reads c₁.unread c₁ _ _ hc₁) ?_
  rintro ps pools c₂ - hc₂ ⟨items, hitems, rfl⟩
  refine .bind hc₂ (modifiers_reads hc₂) ?_
  intro ms modifiers c₃ _ _ hms
  refine .pure ?_
  rw [List.append_nil]
  show Dice (t :: (ps ++ ms)) _
  exact .hopeFear hk hitems hms

/-- Sides are told by the kind of their first token. -/
theorem sidesAndModifiers_run (count : Operand) (c : Cursor) :
    sidesAndModifiers count c = (match c.current.kind with
      | .dice => take >>= fun _ => current >>= fun size =>
        if size.kind = .number ∨ size.kind = .named then
          operand >>= fun sides => modifiers >>= fun ms => pure (.dice count (.faces sides) ms)
        else refuse .sidesMissing size
      | .fate => take >>= fun _ => modifiers >>= fun ms => pure (.dice count .fate ms)
      | _ => refuse .unexpected c.current : Reader Expr) c :=
  rfl

/-- What is read behind a number of dice is a dice term of the grammar with that number. -/
theorem sidesAndModifiers_reads (hc : c.WellFormed) {cs : List Token} {count : Operand}
    (hcount : Count cs count) :
    Reads c (fun used e => Dice (cs ++ used) e) (sidesAndModifiers count c) := by
  rw [sidesAndModifiers_run]
  cases hk : c.current.kind
  case dice =>
    refine .take_bind hc (by simp [hk]) fun c₁ hc₁ => ?_
    show Reads c₁ _ ((if c₁.current.kind = .number ∨ c₁.current.kind = .named then
      operand >>= fun sides => modifiers >>= fun ms => pure (.dice count (.faces sides) ms)
      else refuse .sidesMissing c₁.current : Reader Expr) c₁)
    split
    · refine .bind hc₁ (operand_reads hc₁) ?_
      rintro used sides c₂ - hc₂ ⟨s, rfl, hs⟩
      refine .bind hc₂ (modifiers_reads hc₂) ?_
      intro ms modifiers c₃ _ _ hms
      refine .pure ?_
      rw [List.append_nil]
      exact .sized hcount hk hs hms
    · exact .refuse c₁.current_mem_ahead
  case fate =>
    refine .take_bind hc (by simp [hk]) fun c₁ hc₁ => ?_
    refine .bind hc₁ (modifiers_reads hc₁) ?_
    intro ms modifiers c₂ _ _ hms
    refine .pure ?_
    rw [List.append_nil]
    exact .fate hcount hk hms
  all_goals exact .refuse c.current_mem_ahead

/-- A dice term is told by the kind of its first token. -/
theorem dice_run (c : Cursor) :
    dice c = (match c.current.kind with
      | .hopeFear => hopeFear
      | .number | .named => operand >>= sidesAndModifiers
      | _ => sidesAndModifiers (.number 1) : Reader Expr) c :=
  rfl

/-- A dice term that is read is one of the grammar. -/
theorem dice_reads (hc : c.WellFormed) : Reads c Dice (dice c) := by
  have counted : Reads c Dice ((operand >>= sidesAndModifiers : Reader Expr) c) := by
    refine .bind hc (operand_reads hc) ?_
    rintro used x c₁ - hc₁ ⟨t, rfl, hx⟩
    exact sidesAndModifiers_reads hc₁ (.written hx)
  rw [dice_run]
  cases c.current.kind
  case hopeFear => exact hopeFear_reads hc
  case number => exact counted
  case named => exact counted
  all_goals exact sidesAndModifiers_reads hc .implicit

/-! ## Arithmetic -/

/-- The reader gives what derives as that phrase, with at most `room` parentheses open. -/
def ReadsAs (phrase : Phrase) (room : Nat) (reader : Reader Expr) : Prop :=
  ∀ c : Cursor, c.WellFormed →
    Reads c (fun used e => Derives phrase used e ∧ NestsWithin room used) (reader c)

/-- A token that is no parenthesis and derives by itself. -/
theorem single_readsAs {room : Nat} {α : Type} {x : Reader α} {f : α → Expr} (hc : c.WellFormed)
    {D : Token → α → Prop} (hx : Reads c (fun used a => ∃ t, used = [t] ∧ D t a) (x c))
    (hD : ∀ t a, D t a → Plain t ∧ Derives .factor [t] (f a)) :
    Reads c (fun used e => Derives .factor used e ∧ NestsWithin room used) ((f <$> x) c) := by
  refine hx.map hc ?_
  rintro used a ⟨t, rfl, ht⟩
  obtain ⟨hplain, hder⟩ := hD t a ht
  exact ⟨hder, nestsWithin_of_plain (by simpa using hplain) room⟩

/-- An atom is told by the kind of its first token. -/
theorem atom_run (limit : Int) (inner : Option (Reader Expr)) (c : Cursor) :
    atom limit inner c = (match c.current.kind with
      | .number => .number <$> number
      | .named => .named <$> name
      | .openParen => openParen >>= fun _ =>
        match inner with
        | none => refuse (.nestedTooDeep limit) c.current
        | some expression => take >>= fun _ => expression >>= fun e =>
          expect .closeParen >>= fun _ => closeParen >>= fun _ => pure e
      | _ => refuse .unexpected c.current : Reader Expr) c :=
  rfl

/-- Atoms, given a reader for what stands in parentheses, if there is room for them. -/
theorem atom_readsAs (limit : Int) (room : Nat) (inner : Option (Reader Expr))
    (h : ∀ expression ∈ inner, room ≠ 0 ∧ ReadsAs .sum (room - 1) expression) :
    ReadsAs .factor room (atom limit inner) := by
  intro c hc
  rw [atom_run]
  cases hk : c.current.kind
  case number =>
    exact single_readsAs hc (number_reads hc) fun t n ht => ⟨ht.plain, .number ht⟩
  case named =>
    exact single_readsAs hc (name_reads hc) fun t n ht => ⟨ht.plain, .named ht⟩
  case openParen =>
    cases inner with
    | none => exact .error c.current_mem_ahead
    | some expression =>
      obtain ⟨hroom, hread⟩ := h expression rfl
      have hc₀ : Cursor.WellFormed { c with nesting := c.nesting + 1 } := ⟨hc.unread, hc.last⟩
      refine Reads.congr (c := { c with nesting := c.nesting + 1 }) ?_ rfl rfl
      show Reads _ _ ((take >>= fun _ => expression >>= fun e =>
        expect .closeParen >>= fun _ => closeParen >>= fun _ => pure e : Reader Expr) _)
      refine .take_bind hc₀ (by show c.current.kind ∉ _; simp [hk]) fun c₁ hc₁ => ?_
      refine .bind hc₁ (hread c₁ hc₁) ?_
      rintro ts e c₂ - hc₂ ⟨hder, hnest⟩
      refine .bind hc₂ (expect_reads hc₂ (by decide)) ?_
      rintro used t c₃ - hc₃ ⟨rfl, hclose, -⟩
      have hparens := nestsWithin_parens hk hclose hder.balanced room
      exact .ok (List.nil_append _).symm rfl (by simp)
        ⟨.parens hk hclose hder, hparens.mpr ⟨hroom, hnest⟩⟩
  all_goals exact .refuse c.current_mem_ahead

/-- A factor is what either attempt gives. -/
theorem factor_readsAs {room : Nat} {atom : Reader Expr} (h : ReadsAs .factor room atom) :
    ReadsAs .factor room (factor atom) := by
  intro c hc
  have hdice := dice_reads hc
  unfold factor
  generalize dice c = r at hdice
  cases hdice with
  | ok unread last within related =>
    exact .ok unread last within ⟨.dice related, nestsWithin_of_plain related.plain room⟩
  | @error cause token c' mem =>
    -- What the failed attempt left behind is a note, and that takes no part in reading.
    have hretry := h { c with notes := c.notes.push (.retried c.passed ⟨cause, token⟩) }
      ⟨hc.unread, hc.last⟩
    exact hretry.congr rfl rfl

/-- The operator of a token is one of those accepted. -/
theorem operatorOf_eq_some {accepted : List Operator} {t : Token} {op : Operator}
    (h : operatorOf accepted t = some op) : op ∈ accepted ∧ IsOperator t op := by
  rw [operatorOf] at h
  split at h
  · next hk =>
    have hsymbol := List.find?_some h
    exact ⟨List.mem_of_find?_eq_some h, hk, (by simpa using hsymbol : op.symbol = t.text).symm⟩
  · cases h

/-- A chain of phrases of one kind is a phrase of the next: one of them alone is, and so is one with
    an operator and another one behind it. -/
structure Chains (lower upper : Phrase) (accepted : List Operator) : Prop where
  lift {ts : List Token} {e : Expr} : Derives lower ts e → Derives upper ts e
  step {t : Token} {ls rs : List Token} {op : Operator} {l r : Expr} :
    Derives upper ls l → op ∈ accepted → IsOperator t op → Derives lower rs r →
      Derives upper (ls ++ t :: rs) (.binary op l r)

theorem chains_product : Chains .factor .product [.mul, .div] :=
  ⟨.ofFactor, .product⟩

theorem chains_sum : Chains .product .sum [.add, .sub] :=
  ⟨.ofProduct, .sum⟩

/-- A chain goes on where one of its operators stands. -/
theorem chainFrom_cons_run (accepted : List Operator) (operand : Reader Expr) (round : Token)
    (rounds : List Token) (left : Expr) (c : Cursor) :
    chainFrom accepted operand (round :: rounds) left c =
      (match operatorOf accepted c.current with
      | none => pure left
      | some op => take >>= fun _ => operand >>= fun right =>
        chainFrom accepted operand rounds (.binary op left right) : Reader Expr) c :=
  rfl

/-- Induction on the rounds: what was read so far is one phrase, and each round makes it longer. -/
theorem chainFrom_reads {lower upper : Phrase} {accepted : List Operator}
    (hch : Chains lower upper accepted) {room : Nat} {operand : Reader Expr}
    (hop : ReadsAs lower room operand) (rounds : List Token) :
    ∀ (c : Cursor) (left : Expr) (ls : List Token), c.WellFormed →
      Derives upper ls left ∧ NestsWithin room ls →
      Reads c (fun used e => Derives upper (ls ++ used) e ∧ NestsWithin room (ls ++ used))
        (chainFrom accepted operand rounds left c) := by
  induction rounds with
  | nil =>
    intro c left ls hc hleft
    exact .pure (by rw [List.append_nil]; exact hleft)
  | cons _ rounds ih =>
    intro c left ls hc hleft
    rw [chainFrom_cons_run]
    cases hof : operatorOf accepted c.current with
    | none => exact .pure (by rw [List.append_nil]; exact hleft)
    | some op =>
      obtain ⟨hmem, hisop⟩ := operatorOf_eq_some hof
      have hk := hisop.1
      refine .take_bind hc (by simp [hk]) fun c₁ hc₁ => ?_
      refine .bind hc₁ (hop c₁ hc₁) ?_
      rintro rs right c₂ - hc₂ ⟨hright, hnest⟩
      have hlonger : Derives upper (ls ++ c.current :: rs) (.binary op left right) ∧
          NestsWithin room (ls ++ c.current :: rs) := by
        refine ⟨hch.step hleft.1 hmem hisop hright, ?_⟩
        rw [hleft.1.balanced, nestsWithin_cons_of_plain hisop.plain]
        exact ⟨hleft.2, hnest⟩
      refine (ih c₂ _ _ hc₂ hlonger).mono ?_
      intro used e _ h
      simpa using h

/-- A chain that is read is a phrase of the upper kind, if its operands are phrases of the lower
    one. -/
theorem chain_readsAs {lower upper : Phrase} {accepted : List Operator}
    (hch : Chains lower upper accepted) {room : Nat} {operand : Reader Expr}
    (hop : ReadsAs lower room operand) : ReadsAs upper room (chain accepted operand) := by
  intro c hc
  refine .bind hc (hop c hc) ?_
  rintro ls first c₁ - hc₁ ⟨hfirst, hnest⟩
  exact chainFrom_reads hch hop c₁.unread c₁ first ls hc₁ ⟨hch.lift hfirst, hnest⟩

theorem sum_readsAs {room : Nat} {atom : Reader Expr} (h : ReadsAs .factor room atom) :
    ReadsAs .sum room (sum atom) :=
  chain_readsAs chains_sum (chain_readsAs chains_product (factor_readsAs h))

/-- Induction on the room left for parentheses. -/
theorem expressionAt_readsAs (limit : Int) (room : Nat) :
    ReadsAs .sum room (expressionAt limit room) := by
  induction room with
  | zero => exact sum_readsAs (atom_readsAs limit 0 none (by simp))
  | succ room ih =>
    refine sum_readsAs (atom_readsAs limit (room + 1) (some (expressionAt limit room)) ?_)
    rintro expression ⟨⟩
    exact ⟨by omega, ih⟩

/-! ## Whole texts -/

/-- What is read with its target clause is a sentence of the grammar. -/
theorem target_reads {room : Nat} {expression : Reader Expr} (h : ReadsAs .sum room expression)
    (hc : c.WellFormed) :
    Reads c (fun used e => Sentence used e ∧ NestsWithin room used) (target expression c) := by
  refine .bind hc (h c hc) ?_
  rintro ts e c₁ - hc₁ ⟨hsum, hnest⟩
  show Reads c₁ _ ((if c₁.current.kind = .target then take >>= fun _ => expect .comparison >>=
    fun t => comparison t >>= fun op => operand >>= fun x => pure (.target e op x)
    else pure e : Reader Expr) c₁)
  by_cases hk : c₁.current.kind = .target
  · rw [if_pos hk]
    refine .take_bind hc₁ (by simp [hk]) fun c₂ hc₂ => ?_
    refine .bind hc₂ (expect_reads hc₂ (by decide)) ?_
    rintro used t c₃ - hc₃ ⟨rfl, hcmp, ht⟩
    obtain ⟨op, hop, heq⟩ := comparison_of_wellFormed ht hcmp
    rw [heq, pure_bind]
    refine operand_completes hc₃ fun o x hx => ?_
    refine ⟨.target hsum hk hop hx, ?_⟩
    rw [hsum.balanced]
    refine ⟨hnest, nestsWithin_of_plain ?_ room⟩
    have hplain : Plain c₁.current := by simp [Plain, hk]
    simpa using ⟨hplain, hop.plain, hx.plain⟩
  · rw [if_neg hk]
    exact .pure (by rw [List.append_nil]; exact ⟨.plain hsum, hnest⟩)

/-- Reading a whole list takes every token but the one that ends it. -/
theorem whole_reads (limit : Int) (hc : c.WellFormed) :
    Reads c (fun used e => used = c.unread ∧ Sentence used e ∧
      NestsWithin (limit - c.nesting).toNat used) (whole limit c) := by
  refine .bind hc (target_reads (expressionAt_readsAs limit (limit - c.nesting).toNat) hc) ?_
  rintro used e c₁ hu hc₁ ⟨hsentence, hnest⟩
  show Reads c₁ _ ((if c₁.current.kind = .finish then pure e
    else refuse .unexpected c₁.current : Reader Expr) c₁)
  by_cases hk : c₁.current.kind = .finish
  · rw [if_pos hk]
    rw [hc₁.unread_eq_nil hk, List.append_nil] at hu
    refine .pure ?_
    rw [List.append_nil]
    exact ⟨hu.symm, hsentence, hnest⟩
  · rw [if_neg hk]
    exact .refuse c₁.current_mem_ahead

end Tabletop.Reader
