/-
  Readers that take just so many tokens.

  A phrase of the grammar ends where it likes, a reader only where it must, so that a reader takes a
  whole phrase depends on the token behind it.  `Takes stop used a reader` says that the reader
  takes just the tokens `used`, and gives `a`, wherever the token behind them passes `stop`.

  One lemma for each reader up to dice: what the grammar makes an operand, a comparison, a modifier,
  pools or a dice term is taken as that.  Modifiers stop at a token that begins none, dice terms at
  one that can stand behind a factor.
-/
import Tabletop.Proofs.Reading.Sound

namespace Tabletop.Reader

open Grammar

/-! ## Taking just so many tokens -/

/-- The token ahead is the first one that is left. -/
theorem current_of_unread {c : Cursor} {t : Token} {rest : List Token}
    (h : c.unread = t :: rest) : c.current = t := by
  rw [Cursor.current, h]
  rfl

/-- Behind the token ahead come the others that are left. -/
theorem next_of_unread {c : Cursor} {t : Token} {rest : List Token}
    (h : c.unread = t :: rest) : c.next.unread = rest := by
  rw [Cursor.next, h]

/-- A cursor that has passed tokens is well-formed if it was before. -/
theorem wellFormed_of_append {c c' : Cursor} {used : List Token} (hc : c.WellFormed)
    (hu : c.unread = used ++ c'.unread) (hl : c'.last = c.last) : c'.WellFormed :=
  ⟨fun t ht => hc.unread t (by rw [hu]; exact List.mem_append_right used ht),
    by rw [hl]; exact hc.last⟩

/-- From any cursor before `used` the reader takes just these tokens and gives `a`, wherever the
    token behind them passes `stop`. -/
def Takes {α : Type} (stop : Token → Prop) (used : List Token) (a : α) (reader : Reader α) : Prop :=
  ∀ (c : Cursor) (rest : List Token), c.WellFormed → c.unread = used ++ rest →
    stop (rest.headD c.last) →
    ∃ c' : Cursor, reader c = .ok a c' ∧ c'.unread = rest ∧ c'.last = c.last

namespace Takes

variable {α β : Type} {stop stop' : Token → Prop} {used more : List Token} {t : Token}
variable {a : α} {b : β}

/-- What is read before some tokens is read before fewer of them. -/
theorem weaken {x : Reader α} (hx : Takes stop used a x) (h : ∀ u, stop' u → stop u) :
    Takes stop' used a x :=
  fun c rest hc hu hs => hx c rest hc hu (h _ hs)

theorem pure : Takes stop [] a (pure a : Reader α) :=
  fun c _ _ hu _ => ⟨c, rfl, hu, rfl⟩

/-- The second of two readers in a row begins where the first one has to stop. -/
theorem bind {x : Reader α} {f : α → Reader β} (hx : Takes stop used a x)
    (hf : Takes stop' more b (f a)) (hmore : ∀ u ∈ more.head?, stop u)
    (hnone : more = [] → ∀ u, stop' u → stop u) : Takes stop' (used ++ more) b (x >>= f) := by
  intro c rest hc hu hs
  have hu' : c.unread = used ++ (more ++ rest) := by rw [hu, List.append_assoc]
  have hstop : stop ((more ++ rest).headD c.last) := by
    cases more with
    | nil => exact hnone rfl _ hs
    | cons u more => exact hmore u rfl
  obtain ⟨c₁, hrun, hu₁, hl₁⟩ := hx c (more ++ rest) hc hu' hstop
  have hc₁ : c₁.WellFormed := wellFormed_of_append hc (by rw [hu', hu₁]) hl₁
  obtain ⟨c₂, hrun₂, hu₂, hl₂⟩ := hf c₁ rest hc₁ hu₁ (by rw [hl₁]; exact hs)
  exact ⟨c₂, by rw [Run.bind_of_ok hrun, hrun₂], hu₂, hl₂.trans hl₁⟩

/-- A first reader that may stop anywhere. -/
theorem bind_any {x : Reader α} {f : α → Reader β} (hx : Takes (fun _ => True) used a x)
    (hf : Takes stop more b (f a)) : Takes stop (used ++ more) b (x >>= f) :=
  hx.bind hf (fun _ _ => trivial) fun _ _ _ => trivial

/-- Of two readers in a row the second may take nothing; then the first one stops at the end. -/
theorem bind_nil {x : Reader α} {f : α → Reader β} (hx : Takes stop used a x)
    (hf : Takes stop' [] b (f a)) (h : ∀ u, stop' u → stop u) : Takes stop' used b (x >>= f) := by
  rw [← List.append_nil used]
  exact hx.bind hf (by simp) fun _ => h

/-- What is made of the value takes no token more. -/
theorem bind_pure {x : Reader α} (hx : Takes stop used a x) (f : α → β) :
    Takes stop used (f a) (x >>= fun y => Pure.pure (f y)) :=
  hx.bind_nil .pure fun _ h => h

/-- What is made of a value takes the same tokens. -/
theorem map {x : Reader α} (hx : Takes stop used a x) (f : α → β) :
    Takes stop used (f a) (f <$> x) := by
  rw [map_eq_pure_bind]
  exact hx.bind_pure f

/-- One token is taken, whatever comes behind it. -/
theorem take : Takes (fun _ => True) [t] t Reader.take := by
  intro c rest _ hu _
  refine ⟨c.next, ?_, next_of_unread hu, c.next_last⟩
  rw [Reader.take, current_of_unread hu]

/-- To look at a token is to see the first of those that are taken. -/
theorem look {f : Token → Reader β} (hf : Takes stop (t :: more) b (f t)) :
    Takes stop (t :: more) b (current >>= f) := by
  intro c rest hc hu hs
  have hrun : (current >>= f) c = f t c := by
    show f c.current c = _
    rw [current_of_unread hu]
  rw [hrun]
  exact hf c rest hc hu hs

/-- Where nothing is taken, it is the token behind that is looked at. -/
theorem look_behind {f : Token → Reader β} (hf : ∀ u, stop u → Takes stop [] b (f u)) :
    Takes stop [] b (current >>= f) := by
  intro c rest hc hu hs
  have hcur : c.current = rest.headD c.last := by
    rw [Cursor.current, hu]
    rfl
  show ∃ c', f c.current c = _ ∧ _
  rw [hcur]
  exact hf _ hs c rest hc hu hs

/-- A token of the expected kind is taken. -/
theorem expect {kind : TokenKind} (h : t.kind = kind) :
    Takes (fun _ => True) [t] t (Reader.expect kind) := by
  intro c rest _ hu _
  have hcur := current_of_unread hu
  refine ⟨c.next, ?_, next_of_unread hu, c.next_last⟩
  rw [expect_of_kind (by rw [hcur]; exact h), hcur]

end Takes

/-! ## Operands and comparisons -/

/-- A number is read as what its digits stand for. -/
theorem number_takes {t : Token} (kind : t.kind = .number) (hw : t.WithinLimits) :
    Takes (fun _ => True) [t] (Nat.ofDigitChars 10 t.text.toList 0 : Int) number := by
  intro c rest hc hu _
  obtain rfl := current_of_unread hu
  exact ⟨c.next, number_of_kind hc kind (hw.number kind), next_of_unread hu, c.next_last⟩

/-- A name is read in upper case and without its mark. -/
theorem name_takes {t : Token} (kind : t.kind = .named) (hw : t.WithinLimits) :
    Takes (fun _ => True) [t] (String.ofList (Text.upper (t.text.toList.drop 1))) name := by
  intro c rest hc hu _
  obtain rfl := current_of_unread hu
  exact ⟨c.next, name_of_kind hc kind (hw.named kind), next_of_unread hu, c.next_last⟩

/-- An operand is read as the number or the name that it is. -/
theorem operand_takes {t : Token} {x : Operand} (h : IsOperand t x) (hw : t.WithinLimits) :
    Takes (fun _ => True) [t] x operand := by
  unfold operand
  refine .look ?_
  cases h with
  | number kind =>
    rw [kind]
    exact (number_takes kind hw).map _
  | named kind =>
    rw [kind]
    exact (name_takes kind hw).map _

theorem comparison_of_isComparison {t : Token} {op : Comparison} (h : IsComparison t op) :
    comparison t = pure op := by
  rw [comparison, h.2, Comparison.ofSymbol?_symbol]

/-- Where a comparison stands it is taken. -/
theorem comparison?_takes {t : Token} {op : Comparison} (h : IsComparison t op) :
    Takes (fun _ => True) [t] (some op) comparison? := by
  refine .look ?_
  rw [if_pos h.1]
  have hmap : Takes (fun _ => True) [] (some op) (some <$> comparison t) := by
    rw [comparison_of_isComparison h, map_pure]
    exact .pure
  exact Takes.bind_any .take hmap

/-- Where no comparison stands nothing is taken. -/
theorem comparison?_takes_nil :
    Takes (fun u => u.kind ≠ .comparison) [] none comparison? := by
  refine .look_behind fun u hu => ?_
  rw [if_neg hu]
  exact .pure

/-- An operand completes what was read before it. -/
theorem operand_takes_bind {α : Type} {o : Token} {x : Operand} (h : IsOperand o x)
    (hw : o.WithinLimits) (f : Operand → α) :
    Takes (fun _ => True) [o] (f x) (operand >>= fun y => pure (f y)) :=
  (operand_takes h hw).bind_pure f

theorem IsOperand.kind_ne_comparison {t : Token} {x : Operand} (h : IsOperand t x) :
    t.kind ≠ .comparison := by
  cases h with
  | number kind => simp [kind]
  | named kind => simp [kind]

/-! ## Modifiers -/

/-- The words of selections are known. -/
theorem lookup_of_mem_selectionWords {word : String} {action : SelectionAction} {extreme : Extreme}
    (h : (word, action, extreme) ∈ selectionWords) :
    requests.lookup word = some (.selection action extreme) := by
  simp only [selectionWords, List.mem_cons, Prod.mk.injEq, List.not_mem_nil, or_false] at h
  rcases h with ⟨rfl, rfl, rfl⟩ | ⟨rfl, rfl, rfl⟩ | ⟨rfl, rfl, rfl⟩ | ⟨rfl, rfl, rfl⟩ |
    ⟨rfl, rfl, rfl⟩
  all_goals rfl

/-- The words of rerolls are known. -/
theorem lookup_of_mem_rerollWords {word : String} {mode : RerollMode}
    (h : (word, mode) ∈ rerollWords) : requests.lookup word = some (.reroll mode) := by
  simp only [rerollWords, List.mem_cons, Prod.mk.injEq, List.not_mem_nil, or_false] at h
  rcases h with ⟨rfl, rfl⟩ | ⟨rfl, rfl⟩
  all_goals rfl

theorem lookup_explosion : requests.lookup "!" = some .explosion := rfl

theorem IsWord.kind_ne_comparison {t : Token} {word : String} (h : IsWord t word) :
    t.kind ≠ .comparison := by
  simp [h.1]

/-- Reads the rest of a modifier by what its word asks for. -/
def requested : Request → Reader Modifier
  | .selection action extreme => operand >>= fun x => pure (.selection ⟨action, extreme, x⟩)
  | .explosion => comparison? >>= fun
    | some op => operand >>= fun x => pure (.explosion ⟨op, some x, none⟩)
    | none => pure (.explosion ⟨.ge, none, none⟩)
  | .reroll mode => comparison? >>= fun op =>
    operand >>= fun x => pure (.reroll ⟨mode, op.getD .le, x⟩)

/-- A word that is known is read on as it asks. -/
theorem modifier_of_lookup {t : Token} {request : Request} (hk : t.kind ≠ .comparison)
    (hreq : requests.lookup t.text = some request) : modifier t = requested request := by
  rw [modifier, if_neg hk, hreq]
  cases request <;> rfl

theorem modifier_of_request {t : Token} {word : String} {request : Request} (h : IsWord t word)
    (hreq : requests.lookup word = some request) : modifier t = requested request :=
  modifier_of_lookup (IsWord.kind_ne_comparison h) (by rw [h.2, hreq])

/-- The tokens of a modifier behind its first one are taken, wherever they end. -/
theorem modifier_takes {t : Token} {us : List Token} {m : Modifier} (h : IsModifier (t :: us) m)
    (hw : ∀ u ∈ us, u.WithinLimits) : Takes (fun _ => True) us m (modifier t) := by
  cases h with
  | selection listed head count =>
    rw [modifier_of_request head (lookup_of_mem_selectionWords listed)]
    exact operand_takes_bind count (hw _ List.mem_cons_self) _
  | explosion head comparison threshold =>
    rw [modifier_of_request head lookup_explosion]
    refine Takes.bind_any (comparison?_takes comparison) ?_
    exact operand_takes_bind threshold (hw _ (by simp)) _
  | bareReroll listed head threshold =>
    rw [modifier_of_request head (lookup_of_mem_rerollWords listed)]
    refine Takes.bind comparison?_takes_nil
      (operand_takes_bind threshold (hw _ List.mem_cons_self) _) ?_ (by simp)
    rintro u ⟨⟩
    exact IsOperand.kind_ne_comparison threshold
  | reroll listed head comparison threshold =>
    rw [modifier_of_request head (lookup_of_mem_rerollWords listed)]
    refine Takes.bind_any (comparison?_takes comparison) ?_
    exact operand_takes_bind threshold (hw _ (by simp)) _
  | successCheck comparison threshold =>
    rw [modifier, if_pos comparison.1, comparison_of_isComparison comparison, pure_bind]
    exact operand_takes_bind threshold (hw _ List.mem_cons_self) _

/-- A bare explosion takes nothing more, where no comparison follows. -/
theorem bareExplosion_takes {t : Token} (h : IsWord t "!") :
    Takes (fun u => u.kind ≠ .comparison) [] (.explosion ⟨.ge, none, none⟩) (modifier t) := by
  rw [modifier_of_request h lookup_explosion]
  exact Takes.bind comparison?_takes_nil Takes.pure (by simp) fun _ u hu => hu

/-- A token that begins a modifier. -/
def BeginsModifier (t : Token) : Prop := t.kind = .modifier ∨ t.kind = .comparison

instance (t : Token) : Decidable (BeginsModifier t) :=
  inferInstanceAs (Decidable (t.kind = .modifier ∨ t.kind = .comparison))

theorem IsWord.begins {t : Token} {word : String} (h : IsWord t word) : BeginsModifier t :=
  Or.inl h.1

/-- A modifier begins with a word that is known, or with a comparison. -/
theorem IsModifier.begins {ts : List Token} {m : Modifier} (h : IsModifier ts m) :
    ∃ t us, ts = t :: us ∧ BeginsModifier t := by
  cases h with
  | selection _ head _ => exact ⟨_, _, rfl, IsWord.begins head⟩
  | explosion head _ _ => exact ⟨_, _, rfl, IsWord.begins head⟩
  | bareReroll _ head _ => exact ⟨_, _, rfl, IsWord.begins head⟩
  | reroll _ head _ _ => exact ⟨_, _, rfl, IsWord.begins head⟩
  | successCheck comparison _ => exact ⟨_, _, rfl, Or.inr comparison.1⟩

/-- One round of reading modifiers. -/
theorem modifiersFrom_cons (round : Token) (rounds : List Token) :
    modifiersFrom (round :: rounds) = (current >>= fun t =>
      if BeginsModifier t then take >>= fun t => modifier t >>= fun m =>
        modifiersFrom rounds >>= fun more => pure (m :: more)
      else pure [] : Reader _) := rfl

/-- Induction on the modifiers: each of them ends where the next one begins, or at the token behind
    them all. -/
theorem modifiersFrom_takes {ts : List Token} {ms : List Modifier} (h : Modifiers ts ms) :
    ∀ rounds : List Token, ts.length ≤ rounds.length → (∀ t ∈ ts, t.WithinLimits) →
      Takes (fun u => ¬ BeginsModifier u) ts ms (modifiersFrom rounds) := by
  induction h with
  | nil =>
    intro rounds _ _
    cases rounds with
    | nil => exact .pure
    | cons round rounds =>
      rw [modifiersFrom_cons]
      refine .look_behind fun u hu => ?_
      rw [if_neg hu]
      exact .pure
  | @cons us rest m ms head tail ih =>
    intro rounds hlen hw
    obtain ⟨t, us, rfl, hbegins⟩ := IsModifier.begins head
    cases rounds with
    | nil => simp at hlen
    | cons round rounds =>
      have hlen' : rest.length ≤ rounds.length := by
        simp only [List.cons_append, List.length_cons, List.length_append] at hlen
        omega
      have hmore := ih rounds hlen' fun u hu => hw u (List.mem_append_right _ hu)
      have hone := modifier_takes head fun u hu => hw u (by simp [hu])
      rw [modifiersFrom_cons]
      refine .look ?_
      rw [if_pos hbegins]
      exact Takes.bind_any .take (Takes.bind_any hone (hmore.bind_pure _))
  | @bareExplosion t rest ms head bare tail ih =>
    intro rounds hlen hw
    cases rounds with
    | nil => simp at hlen
    | cons round rounds =>
      have hmore := ih rounds (by simpa using hlen) fun u hu => hw u (List.mem_cons_of_mem _ hu)
      rw [modifiersFrom_cons]
      refine .look ?_
      rw [if_pos (IsWord.begins head)]
      refine Takes.bind_any .take ?_
      -- A comparison behind the bare mark would be taken for its condition.
      exact (bareExplosion_takes head).bind (hmore.bind_pure _) bare fun _ u hu hc => hu (Or.inr hc)

/-- Modifiers are read until none begins: induction on them. -/
theorem modifiers_takes {ts : List Token} {ms : List Modifier} (h : Modifiers ts ms)
    (hw : ∀ t ∈ ts, t.WithinLimits) :
    Takes (fun u => ¬ BeginsModifier u) ts ms modifiers := by
  intro c rest hc hu hs
  exact modifiersFrom_takes h c.unread (by simp [hu]) hw c rest hc hu hs

/-- The first of some modifiers begins one. -/
theorem Modifiers.begins {ts : List Token} {ms : List Modifier} (h : Modifiers ts ms) :
    ∀ u ∈ ts.head?, BeginsModifier u := by
  cases h with
  | nil => simp
  | cons head tail =>
    obtain ⟨t, us, rfl, hbegins⟩ := IsModifier.begins head
    simpa using hbegins
  | bareExplosion head _ _ => simpa using IsWord.begins head

/-! ## Dice -/

/-- A token behind a whole factor. -/
def EndsFactor (u : Token) : Prop := u.kind ∈ [.operator, .target, .closeParen, .finish]

/-- What ends a factor begins no modifier. -/
theorem EndsFactor.not_beginsModifier {u : Token} (h : EndsFactor u) : ¬ BeginsModifier u := by
  rintro (hk | hk)
  all_goals simp [EndsFactor, hk] at h

/-- A token that names no pool. -/
def NamesNoPool (u : Token) : Prop := ∀ pool : Pool, u.kind ≠ pool.kind

/-- What ends a factor names no pool. -/
theorem EndsFactor.namesNoPool {u : Token} (h : EndsFactor u) : NamesNoPool u := by
  intro pool hk
  cases pool <;> simp [EndsFactor, hk, Pool.kind] at h

/-- What begins a modifier names no pool. -/
theorem BeginsModifier.namesNoPool {u : Token} (h : BeginsModifier u) : NamesNoPool u := by
  intro pool hk
  cases pool <;> simp [BeginsModifier, hk, Pool.kind] at h

/-- Where no pool is named the counts stay as they are. -/
theorem poolsFrom_takes_nil (a d : Operand) (rounds : List Token) :
    Takes NamesNoPool [] (a, d) (poolsFrom a d rounds) := by
  cases rounds with
  | nil => exact .pure
  | cons round rounds =>
    rw [poolsFrom]
    refine .look_behind fun u hu => ?_
    have ha := hu .advantage
    have hd := hu .disadvantage
    split
    · next hk => exact absurd hk ha
    · next hk => exact absurd hk hd
    · exact .pure

/-- Induction on the pools, for any counts that were given before. -/
theorem poolsFrom_takes {ts : List Token} {items : List (Pool × Operand)} (h : Pools ts items) :
    ∀ (a d : Operand) (rounds : List Token), ts.length ≤ rounds.length →
      (∀ t ∈ ts, t.WithinLimits) → Takes NamesNoPool ts
        ((items.reverse.lookup .advantage).getD a, (items.reverse.lookup .disadvantage).getD d)
        (poolsFrom a d rounds) := by
  induction h with
  | nil =>
    intro a d rounds _ _
    exact poolsFrom_takes_nil a d rounds
  | @cons t o rest pool x items kind count _ ih =>
    intro a d rounds hlen hw
    cases rounds with
    | nil => simp at hlen
    | cons round rounds =>
      have hlen' : rest.length ≤ rounds.length := by
        simp only [List.length_cons] at hlen
        omega
      have hmore := fun a d => ih a d rounds hlen' fun u hu => hw u (by simp [hu])
      have hcount := operand_takes count (hw o (by simp))
      rw [latest_cons, latest_cons, poolsFrom]
      refine .look ?_
      cases pool with
      | advantage =>
        rw [show t.kind = .advantage from kind]
        exact Takes.bind_any .take (Takes.bind_any hcount (hmore x d))
      | disadvantage =>
        rw [show t.kind = .dice from kind]
        exact Takes.bind_any .take (Takes.bind_any hcount (hmore a x))

/-- A Hope/Fear roll is read with the counts of its pools and its modifiers. -/
theorem hopeFear_takes {t : Token} {ps ms : List Token} {items : List (Pool × Operand)}
    {modifiers : List Modifier} (kind : t.kind = .hopeFear) (pools : Pools ps items)
    (tail : Modifiers ms modifiers) (hw : ∀ u ∈ ps ++ ms, u.WithinLimits) :
    Takes EndsFactor (t :: (ps ++ ms))
      (.hopeFear (countOf .advantage items) (countOf .disadvantage items) modifiers) hopeFear := by
  refine Takes.bind_any (.expect kind) ?_
  have hpools : Takes NamesNoPool ps
      (countOf .advantage items, countOf .disadvantage items)
      (rounds >>= poolsFrom (.number 0) (.number 0)) := by
    intro c rest hc hu hs
    exact poolsFrom_takes pools _ _ c.unread (by simp [hu])
      (fun u hu => hw u (List.mem_append_left ms hu)) c rest hc hu hs
  have hms := modifiers_takes tail fun u hu => hw u (List.mem_append_right ps hu)
  refine hpools.bind ((hms.weaken fun u hu => ?_).bind_pure _) ?_ ?_
  · exact EndsFactor.not_beginsModifier hu
  · exact fun u hu => BeginsModifier.namesNoPool (Modifiers.begins tail u hu)
  · exact fun _ u hu => EndsFactor.namesNoPool hu

/-- The count of a dice term is left to whoever reads the term; here it is given. -/
theorem sides_takes {d s : Token} {ms : List Token} {count sides : Operand}
    {modifiers : List Modifier} (kind : d.kind = .dice) (size : IsOperand s sides)
    (tail : Modifiers ms modifiers) (hw : ∀ u ∈ s :: ms, u.WithinLimits) :
    Takes EndsFactor (d :: s :: ms) (.dice count (.faces sides) modifiers)
      (sidesAndModifiers count) := by
  have hs : s.kind = .number ∨ s.kind = .named := by
    cases size with
    | number kind => exact Or.inl kind
    | named kind => exact Or.inr kind
  have hms := modifiers_takes tail fun u hu => hw u (List.mem_cons_of_mem s hu)
  unfold sidesAndModifiers
  refine .look ?_
  rw [kind]
  refine Takes.bind_any .take (.look ?_)
  rw [if_pos hs]
  refine Takes.bind_any (operand_takes size (hw s List.mem_cons_self)) ?_
  exact (hms.weaken fun u hu => EndsFactor.not_beginsModifier hu).bind_pure _

/-- Fate dice are read with their modifiers. -/
theorem fate_takes {d : Token} {ms : List Token} {count : Operand} {modifiers : List Modifier}
    (kind : d.kind = .fate) (tail : Modifiers ms modifiers) (hw : ∀ u ∈ ms, u.WithinLimits) :
    Takes EndsFactor (d :: ms) (.dice count .fate modifiers) (sidesAndModifiers count) := by
  unfold sidesAndModifiers
  refine .look ?_
  rw [kind]
  refine Takes.bind_any .take ?_
  exact ((modifiers_takes tail hw).weaken fun u hu => EndsFactor.not_beginsModifier hu).bind_pure _

/-- A count that is written is read before the die. -/
theorem dice_takes_of_count {cs ts : List Token} {count : Operand} {e : Expr} {d : Token}
    (head : Count cs count) (hd : d.kind = .dice ∨ d.kind = .fate)
    (hw : ∀ u ∈ cs, u.WithinLimits)
    (hdie : Takes EndsFactor (d :: ts) e (sidesAndModifiers count)) :
    Takes EndsFactor (cs ++ d :: ts) e dice := by
  unfold dice
  cases head with
  | implicit =>
    refine .look ?_
    rcases hd with hd | hd
    · rw [hd]
      exact hdie
    · rw [hd]
      exact hdie
  | @written t x operand =>
    have hcount := operand_takes operand (hw t List.mem_cons_self)
    refine .look ?_
    cases operand with
    | number kind =>
      rw [kind]
      exact Takes.bind_any hcount hdie
    | named kind =>
      rw [kind]
      exact Takes.bind_any hcount hdie

/-- A dice term is read up to what ends a factor. -/
theorem dice_takes {ts : List Token} {e : Expr} (h : Dice ts e) (hw : ∀ t ∈ ts, t.WithinLimits) :
    Takes EndsFactor ts e dice := by
  cases h with
  | hopeFear kind pools tail =>
    unfold dice
    refine .look ?_
    rw [kind]
    exact hopeFear_takes kind pools tail fun u hu => hw u (List.mem_cons_of_mem _ hu)
  | sized head kind size tail =>
    refine dice_takes_of_count head (Or.inl kind) (fun u hu => hw u (by simp [hu])) ?_
    refine sides_takes kind size tail fun u hu => hw u ?_
    exact List.mem_append_right _ (List.mem_cons_of_mem _ hu)
  | fate head kind tail =>
    refine dice_takes_of_count head (Or.inr kind) (fun u hu => hw u (by simp [hu])) ?_
    refine fate_takes kind tail fun u hu => hw u ?_
    exact List.mem_append_right _ (List.mem_cons_of_mem _ hu)

end Tabletop.Reader
