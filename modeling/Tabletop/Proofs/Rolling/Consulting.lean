/-
  The variables that a roll consults.

  1. **Names** — `Expr.consulted` lists the names in an expression in the order in which a roll
     comes to them: left before right, and in a dice term its number, its size, and then its
     modifiers by kind, as they take effect.  A target check comes to its threshold last.  The
     modifiers of a Hope/Fear roll are not looked at.
  2. **Runs** — `Consults setup names roll` says that a run that goes well has looked up just these
     names in this order, found a value for each, and left the other bindings as they were.  It is
     closed under what rolls are put together with.  Whether a die meets a condition decides about
     draws only, never about what is looked up, so the names do not hang on the dice.
-/
import Tabletop.Proofs.Bindings
import Tabletop.Proofs.Rolling.Record

namespace Tabletop

/-! ## Names -/

/-- The name in an operand, if there is one. -/
def Operand.names : Operand → List String
  | .number _ => []
  | .named name => [name]

/-- The name in the size of a die, if there is one. -/
def Sides.names : Sides Operand → List String
  | .faces operand => operand.names
  | .fate => []

/-- The name in the threshold of an explosion, if it has one. -/
def Explosion.names (explosion : Explosion) : List String :=
  match explosion.threshold with
  | none => []
  | some operand => operand.names

/-- The names in modifiers, kind by kind in the order in which the kinds take effect. -/
def Modifier.names (modifiers : List Modifier) : List String :=
  (rerolls modifiers).flatMap (·.threshold.names) ++
    (explosions modifiers).flatMap Explosion.names ++
      (selections modifiers).flatMap (·.count.names) ++
        (successChecks modifiers).flatMap (·.threshold.names)

/-- The names that a roll of an expression consults, in order. -/
def Expr.consulted : Expr → List String
  | .number _ => []
  | .named name => [name]
  | .dice count sides modifiers => count.names ++ sides.names ++ Modifier.names modifiers
  | .hopeFear advantage disadvantage _ => advantage.names ++ disadvantage.names
  | .binary _ left right => left.consulted ++ right.consulted
  | .target inner _ threshold => inner.consulted ++ threshold.names
  | .missing => []

namespace Rolling

/-! ## Runs -/

/-- The bindings `after` are `before` with these names bound, in this order, to their values in the
    table. -/
def Consulted (table : Bindings Int) (names : List String) (before after : Bindings Int) : Prop :=
  ∃ pairs : List (String × Int), pairs.map (·.1) = names ∧ Bindings.Agree table.get? pairs ∧
    after = before.bindAll pairs

/-- A run of the roll that goes well has consulted these names. -/
def Consults {α : Type} (setup : Setup) (names : List String) (roll : Rolling α) : Prop :=
  ∀ (before after : Ledger) (a : α), roll before = .ok a after →
    Consulted setup.table names before.used after.used

/-- Where no names are consulted the bindings stay as they are. -/
theorem Consulted.refl (table bindings : Bindings Int) : Consulted table [] bindings bindings :=
  ⟨[], rfl, fun _ => nofun, rfl⟩

/-- Names that are consulted in two parts, one after the other. -/
theorem Consulted.trans {table first second third : Bindings Int} {names more : List String}
    (h : Consulted table names first second) (h' : Consulted table more second third) :
    Consulted table (names ++ more) first third := by
  obtain ⟨pairs, hnames, hagree, rfl⟩ := h
  obtain ⟨pairs', hnames', hagree', rfl⟩ := h'
  refine ⟨pairs ++ pairs', ?_, fun entry hentry => ?_, ?_⟩
  · rw [List.map_append, hnames, hnames']
  · rcases List.mem_append.mp hentry with hentry | hentry
    · exact hagree entry hentry
    · exact hagree' entry hentry
  · rw [Bindings.bindAll, Bindings.bindAll, ← List.foldl_append, ← Bindings.bindAll]

namespace Consults

variable {α β : Type} {setup : Setup} {names more : List String}

/-- What leaves the bindings alone consults nothing. -/
theorem of_silent {roll : Rolling α}
    (h : ∀ before after a, roll before = .ok a after → after.used = before.used) :
    Consults setup [] roll := by
  intro before after a hok
  rw [h before after a hok]
  exact .refl _ _

theorem pure (a : α) : Consults setup [] (pure a) :=
  of_silent fun _ _ _ h => by
    cases h
    rfl

/-- What fails may be said to consult anything. -/
theorem refuse (hazard : Hazard) : Consults setup names (Rolling.refuse hazard : Rolling α) :=
  fun _ _ _ => nofun

/-- Two rolls in a row consult the names of the first and then those of the second. -/
theorem bind {roll : Rolling α} {next : α → Rolling β} (h : Consults setup names roll)
    (hnext : ∀ a, Consults setup more (next a)) :
    Consults setup (names ++ more) (roll >>= next) := by
  intro before after b hok
  obtain ⟨a, mid, hfirst, hsecond⟩ := Run.bind_eq_ok.mp hok
  exact (h before mid a hfirst).trans (hnext a mid after b hsecond)

/-- What consults nothing may come first. -/
theorem silent_bind {roll : Rolling α} {next : α → Rolling β} (h : Consults setup [] roll)
    (hnext : ∀ a, Consults setup names (next a)) : Consults setup names (roll >>= next) :=
  h.bind hnext

/-- What consults nothing may come last. -/
theorem bind_silent {roll : Rolling α} {next : α → Rolling β} (h : Consults setup names roll)
    (hnext : ∀ a, Consults setup [] (next a)) : Consults setup names (roll >>= next) := by
  have hboth := h.bind hnext
  rwa [List.append_nil] at hboth

/-- So what is made of a value in the end consults nothing more. -/
theorem bind_pure {roll : Rolling α} (h : Consults setup names roll) (f : α → β) :
    Consults setup names (roll >>= fun a => Pure.pure (f a)) :=
  h.bind_silent fun a => pure (f a)

/-- A choice between rolls that consult the same names consults these. -/
theorem ite {c : Prop} [Decidable c] {x y : Rolling α} (hx : Consults setup names x)
    (hy : Consults setup names y) : Consults setup names (if c then x else y) := by
  split
  · exact hx
  · exact hy

end Consults

variable {setup : Setup} {sides : Sides Int}

/-! ## Looking up -/

/-- An operand consults its name. -/
theorem resolve_consults (operand : Operand) :
    Consults setup operand.names (resolve setup operand) := by
  cases operand with
  | number n => exact .pure n
  | named name =>
    intro before after n h
    rw [resolve] at h
    split at h
    · next hvalue =>
      cases h
      exact ⟨[(name, n)], rfl, List.forall_mem_singleton.mpr hvalue, rfl⟩
    · cases h

/-- Holding a value against bounds consults no further name. -/
theorem resolveWithin_consults (what : Quantity) (minimum maximum : Int) (operand : Operand) :
    Consults setup operand.names (resolveWithin setup what minimum maximum operand) :=
  (resolve_consults operand).bind_silent fun n => .ite (.refuse _) (.pure n)

theorem resolveSides_consults (sides : Sides Operand) :
    Consults setup sides.names (resolveSides setup sides) := by
  cases sides with
  | fate => exact .pure _
  | faces operand =>
    rw [resolveSides_faces]
    exact (resolveWithin_consults _ _ _ operand).bind_pure _

/-! ## Drawing -/

/-- Noting an event consults no name. -/
theorem note_consults (event : Event) : Consults setup [] (note event) :=
  .of_silent fun _ _ _ h => by
    cases h
    rfl

/-- Whether an event is noted on the way makes no difference to the names. -/
theorem noteIf_consults {α : Type} {names : List String} {c : Prop} [Decidable c] (event : Event)
    {next : Rolling α} (h : Consults setup names next) :
    Consults setup names (if c then note event >>= fun _ => next else next) :=
  .ite ((note_consults event).bind fun _ => h) h

/-- A draw consults no name. -/
theorem draw_consults : Consults setup [] (draw setup sides) := by
  refine .of_silent fun before after face h => ?_
  rw [draw] at h
  split at h
  · cases h
    rfl
  · cases h

/-- However many dice are drawn, no name is consulted. -/
theorem drawDice_consults (role : Option String) (n : Nat) :
    Consults setup [] (drawDice setup sides role n) := by
  induction n with
  | zero => exact .pure _
  | succ n ih => exact draw_consults.bind fun face => ih.bind_pure _

/-- However often a die is replaced, no name is consulted: induction on the spare draws. -/
theorem chase_consults (meets : Int → Bool) (spare : Nat) :
    ∀ face : Int, Consults setup [] (chase setup sides meets face spare) := by
  induction spare with
  | zero => exact fun face => noteIf_consults _ (.pure _)
  | succ spare ih =>
    intro face
    rw [chase_succ]
    exact .ite (draw_consults.bind fun next => (ih next).bind_pure _) (.pure _)

theorem replace_consults (mode : RerollMode) (meets : Int → Bool) (spare : Nat) :
    Consults setup [] (replace setup sides mode meets spare) := by
  refine draw_consults.silent_bind fun face => ?_
  cases mode with
  | once => exact .pure _
  | continuous => exact chase_consults meets spare face

/-- Replacing dice consults no name, for the threshold is known before: induction on the dice. -/
theorem rerollEach_consults (mode : RerollMode) (meets : Int → Bool) (dice : List Die) :
    ∀ spare : Nat, Consults setup [] (rerollEach setup sides mode meets spare dice) := by
  induction dice with
  | nil => exact fun spare => .pure _
  | cons die rest ih =>
    intro spare
    rw [rerollEach_cons]
    exact .ite ((replace_consults mode meets spare).bind fun r => (ih r.2).bind_pure _)
      ((ih spare).bind_pure _)

/-- As in the scan itself the induction is on the explosions left, and inside on the dice. -/
theorem scan_consults (meets : Int → Bool) (spare : Nat) :
    ∀ dice : List Die, Consults setup [] (scan setup sides meets spare dice) := by
  induction spare with
  | zero =>
    intro dice
    rw [scan_zero]
    exact .pure _
  | succ left ihspare =>
    intro dice
    induction dice with
    | nil =>
      rw [scan_nil]
      exact .pure _
    | cons die rest ihrest =>
      rw [scan_cons]
      refine .ite ?_ (ihrest.bind_pure _)
      exact (draw_consults.bind_pure _).bind fun extra => (ihspare _).bind_pure _

/-! ## Modifiers -/

/-- Rerolls consult the names of their thresholds, one after the other. -/
theorem applyRerolls_consults (rerolls : List Reroll) :
    ∀ (spare : Nat) (dice : List Die),
      Consults setup (rerolls.flatMap (·.threshold.names))
        (applyRerolls setup sides rerolls spare dice) := by
  induction rerolls with
  | nil => exact fun spare dice => .pure _
  | cons m rest ih =>
    intro spare dice
    rw [applyRerolls_cons, List.flatMap_cons]
    refine (resolve_consults m.threshold).bind fun threshold => ?_
    exact (rerollEach_consults m.mode _ dice spare).bind fun after => ih _ _

/-- An explosion consults the name of its threshold, if it has one. -/
theorem explosionThreshold_consults (m : Explosion) :
    Consults setup m.names (explosionThreshold setup sides m) := by
  rw [explosionThreshold, Explosion.names]
  cases m.threshold with
  | none => exact .pure _
  | some operand => exact resolve_consults operand

/-- Explosions consult the names of their thresholds, one after the other. -/
theorem applyExplosions_consults (explosions : List Explosion) :
    ∀ (count : Nat) (dice : List Die),
      Consults setup (explosions.flatMap Explosion.names)
        (applyExplosions setup sides explosions count dice) := by
  induction explosions with
  | nil => exact fun count dice => .pure _
  | cons m rest ih =>
    intro count dice
    rw [applyExplosions_cons, List.flatMap_cons]
    refine (explosionThreshold_consults m).bind fun threshold => ?_
    exact (scan_consults _ _ dice).bind fun after => noteIf_consults _ (ih _ _)

/-- Selections consult the names of their counts, one after the other. -/
theorem applySelections_consults (selections : List Selection) :
    ∀ dice : List Die, Consults setup (selections.flatMap (·.count.names))
      (applySelections setup selections dice) := by
  induction selections with
  | nil => exact fun dice => .pure _
  | cons m rest ih =>
    intro dice
    rw [applySelections_cons, List.flatMap_cons]
    exact (resolve_consults m.count).bind fun count => .ite (.refuse _) (ih _)

/-- Success checks consult the names of their thresholds, one after the other. -/
theorem resolveChecks_consults (checks : List SuccessCheck) :
    Consults setup (checks.flatMap (·.threshold.names)) (resolveChecks setup checks) := by
  induction checks with
  | nil => exact .pure _
  | cons m rest ih =>
    rw [resolveChecks_cons, List.flatMap_cons]
    exact (resolve_consults m.threshold).bind fun threshold => ih.bind_pure _

theorem countUp_consults (checks : List SuccessCheck) (dice : List Die) :
    Consults setup (checks.flatMap (·.threshold.names)) (countUp setup checks dice) := by
  rw [countUp]
  cases checks with
  | nil => exact .pure _
  | cons m rest => exact (resolveChecks_consults (m :: rest)).bind_pure _

/-! ## Terms -/

/-- Up to its selections a dice term consults its number, its size, and then the names of its
    rerolls, explosions and selections. -/
theorem selectDice_consults (count : Operand) (sides : Sides Operand)
    (modifiers : List Modifier) :
    Consults setup (count.names ++ (sides.names ++
      ((Modifier.rerolls modifiers).flatMap (·.threshold.names) ++
        ((Modifier.explosions modifiers).flatMap Explosion.names ++
          (Modifier.selections modifiers).flatMap (·.count.names)))))
      (selectDice setup count sides modifiers) := by
  refine (resolveWithin_consults _ _ _ count).bind fun n => ?_
  refine (resolveSides_consults sides).bind fun size => ?_
  refine (drawDice_consults none n.toNat).silent_bind fun first => ?_
  refine (applyRerolls_consults _ _ first).bind fun r => ?_
  refine (applyExplosions_consults _ 0 r.1).bind fun exploded => ?_
  exact (applySelections_consults _ exploded).bind_pure _

/-- A dice term consults the names in it in the order in which they take effect. -/
theorem diceTerm_consults (count : Operand) (sides : Sides Operand) (modifiers : List Modifier) :
    Consults setup (Expr.dice count sides modifiers).consulted
      (diceTerm setup count sides modifiers) := by
  have hconclude : ∀ selected, Consults setup
      ((Modifier.successChecks modifiers).flatMap (·.threshold.names))
        (concludeDice setup modifiers selected) := fun selected =>
    (countUp_consults _ selected.dice).bind_silent fun tally => (note_consults _).bind_pure _
  have hselect : Consults setup _ (selectDice setup count sides modifiers) :=
    selectDice_consults count sides modifiers
  have hterm := hselect.bind hconclude
  rw [← diceTerm_eq] at hterm
  simpa only [Expr.consulted, Modifier.names, List.append_assoc] using hterm

/-- A Hope/Fear roll consults the counts of its pools, and nothing of its modifiers. -/
theorem hopeFearTerm_consults (advantage disadvantage : Operand) (modifiers : List Modifier) :
    Consults setup (Expr.hopeFear advantage disadvantage modifiers).consulted
      (hopeFearTerm setup advantage disadvantage modifiers) := by
  have hdraw : ∀ m n : Nat, Consults setup [] (drawHopeFear setup m n) := by
    intro m n
    refine draw_consults.silent_bind fun hope => ?_
    refine draw_consults.silent_bind fun fear => ?_
    refine (drawDice_consults _ m).silent_bind fun helping => ?_
    exact (drawDice_consults _ n).bind_pure _
  rw [hopeFearTerm_eq]
  refine (resolveWithin_consults _ _ _ advantage).bind fun m => ?_
  refine (resolveWithin_consults _ _ _ disadvantage).bind_silent fun n => ?_
  exact noteIf_consults _ (hdraw m.toNat n.toNat)

/-! ## Expressions -/

/-- **What an expression consults**: induction on it, for any room that is left. -/
theorem roll_consults (expr : Expr) :
    ∀ room : Nat, Consults setup expr.consulted (expr.roll setup room) := by
  induction expr with
  | number n => exact fun room => .pure _
  | named name => exact fun room => (resolve_consults (.named name)).bind_pure _
  | dice count sides modifiers => exact fun room => diceTerm_consults count sides modifiers
  | hopeFear advantage disadvantage modifiers =>
    exact fun room => hopeFearTerm_consults advantage disadvantage modifiers
  | missing =>
    intro room before after tally h
    cases h
  | binary op left right ihl ihr =>
    intro room
    cases room with
    | zero => exact .refuse _
    | succ room =>
      rw [roll_binary]
      refine (ihl room).bind fun l => (ihr room).bind_silent fun r => ?_
      cases op.apply l.value r.value with
      | ok value => exact .pure _
      | error hazard => exact .refuse hazard
  | target inner comparison threshold ih =>
    intro room
    cases room with
    | zero => exact .refuse _
    | succ room =>
      exact (ih room).bind fun tally => (resolve_consults threshold).bind_pure _

end Rolling

/-! ## Names of every kind -/

/-- What holds of all names in an expression holds of those that a roll consults. -/
theorem consulted_of_namedAll {P : String → Prop} {expr : Expr} (h : NamedAll P expr) :
    ∀ name ∈ expr.consulted, P name := by
  have hoperand : ∀ {operand : Operand}, Named P operand → ∀ name ∈ operand.names, P name := by
    intro operand h
    cases operand with
    | number n => nofun
    | named name => exact List.forall_mem_singleton.mpr h
  induction expr with
  | number n => nofun
  | named name => exact List.forall_mem_singleton.mpr h
  | dice count sides modifiers =>
    obtain ⟨hcount, hsides, hmodifiers⟩ := h
    obtain ⟨hrerolls, hexplosions, hselections, hchecks⟩ := Rolling.namedIn_by_kind hmodifiers
    have hsize : ∀ name ∈ sides.names, P name := by
      cases sides with
      | faces operand => exact hoperand hsides
      | fate => nofun
    have hexplosion : ∀ m ∈ Modifier.explosions modifiers, ∀ name ∈ m.names, P name := by
      intro m hm
      cases hthreshold : m.threshold with
      | none =>
        rw [Explosion.names, hthreshold]
        nofun
      | some operand =>
        rw [Explosion.names, hthreshold]
        exact hoperand (hexplosions m hm operand hthreshold)
    intro name hname
    simp only [Expr.consulted, Modifier.names, List.mem_append, List.mem_flatMap] at hname
    rcases hname with (hname | hname) | ((⟨m, hm, hname⟩ | ⟨m, hm, hname⟩) | ⟨m, hm, hname⟩) |
      ⟨m, hm, hname⟩
    · exact hoperand hcount name hname
    · exact hsize name hname
    · exact hoperand (hrerolls m hm) name hname
    · exact hexplosion m hm name hname
    · exact hoperand (hselections m hm) name hname
    · exact hoperand (hchecks m hm) name hname
  | hopeFear advantage disadvantage modifiers =>
    exact List.forall_mem_append.mpr ⟨hoperand h.1, hoperand h.2⟩
  | binary op left right ihl ihr => exact List.forall_mem_append.mpr ⟨ihl h.1, ihr h.2⟩
  | target inner comparison threshold ih =>
    exact List.forall_mem_append.mpr ⟨ih h.1, hoperand h.2⟩
  | missing => exact h.elim

end Tabletop
