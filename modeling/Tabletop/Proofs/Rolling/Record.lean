/-
  Rolls keep a record: the dice of a roll are those that were drawn, in the order of drawing.

  One lemma for each function of a roll.  Modifiers only mark dice and put new ones behind all
  others, so what a list of dice shows, their sizes and faces, grows at its end by what is drawn;
  and operands are rolled from left to right, so that their dice come to lie in that order, too.
-/
import Tabletop.Proofs.Rolling.Trace
import Tabletop.Roll.Expr

namespace Tabletop

/-- What dice show: for each its size and its face. -/
def shown (dice : List Die) : List (Sides Int × Int) := dice.map fun die => (die.sides, die.face)

@[simp]
theorem shown_nil : shown [] = [] := rfl

/-- The first die is shown first. -/
@[simp]
theorem shown_cons (die : Die) (dice : List Die) :
    shown (die :: dice) = (die.sides, die.face) :: shown dice := rfl

/-- Dice in a row are shown in a row. -/
@[simp]
theorem shown_append (dice more : List Die) : shown (dice ++ more) = shown dice ++ shown more :=
  List.map_append

namespace Rolling

variable {limits : Limits} {P : String → Prop} {sides : Sides Int}

/-! ## Drawing and looking up -/

/-- A draw shows the die that is drawn. -/
theorem drawDie_traced (h : sides.Rollable) :
    Traced limits P (fun draws die => shown [die] = draws) (drawDie · sides) := by
  show Traced limits P _ fun setup => draw setup sides >>= fun face =>
    pure ({ sides, face } : Die)
  refine .bind (draw_traced h) ?_
  rintro _ face rfl
  exact .pure rfl

/-- The draws show the dice, one by one: induction on their number. -/
theorem drawDice_traced (h : sides.Rollable) (role : Option String) (n : Nat) :
    Traced limits P (fun draws dice => shown dice = draws) (drawDice · sides role n) := by
  induction n with
  | zero => exact .pure rfl
  | succ n ih =>
    show Traced limits P _ fun setup => draw setup sides >>= fun face =>
      drawDice setup sides role n >>= fun more => pure ({ sides, face, role } :: more)
    refine .bind (draw_traced h) ?_
    rintro _ face rfl
    refine .bind ih ?_
    rintro _ more rfl
    exact .pure (by simp)

/-- A value that is looked up costs no draw, and lies between its bounds. -/
theorem resolveWithin_traced {operand : Operand} (h : Named P operand) (what : Quantity)
    (minimum maximum : Int) :
    Traced limits P (fun draws n => draws = [] ∧ minimum ≤ n ∧ n ≤ maximum)
      (resolveWithin · what minimum maximum operand) := by
  show Traced limits P _ fun setup => resolve setup operand >>= fun n =>
    if n < minimum ∨ maximum < n then refuse (.outOfRange what minimum maximum n) else pure n
  refine .bind (resolve_traced h) ?_
  rintro _ n rfl
  refine .ite (fun _ => .refuse _) fun hin => .pure ⟨rfl, ?_⟩
  omega

/-! ## Rerolls -/

/-- Induction on the spare draws: each round shows one face more. -/
theorem chase_traced (h : sides.Rollable) (meets : Int → Bool) (spare : Nat) :
    ∀ face : Int, Traced limits P (fun draws r => shown r.1 = (sides, face) :: draws)
      (chase · sides meets face spare) := by
  induction spare with
  | zero =>
    intro face
    have hlast : Traced limits P (fun draws r => shown r.1 = (sides, face) :: draws)
        fun _ => pure ([{ sides, face }], 0) := .pure rfl
    have hnoted := noteIf_traced (c := meets face) (.rerollLimit limits.rerolls) hlast
    refine hnoted.congr fun setup hlim => ?_
    rw [← hlim]
    rfl
  | succ spare ih =>
    intro face
    show Traced limits P _ fun setup =>
      if meets face then draw setup sides >>= fun next => chase setup sides meets next spare >>=
        fun r => pure ({ sides, face, rerolled := true } :: r.1, r.2)
      else pure ([{ sides, face }], spare + 1)
    refine .ite (fun _ => .bind (draw_traced h) ?_) fun _ => .pure rfl
    rintro _ next rfl
    refine .bind (ih next) ?_
    rintro draws ⟨more, left⟩ hmore
    exact .pure (by simpa using hmore)

/-- The draws of a reroll show the dice that replace one die. -/
theorem replace_traced (h : sides.Rollable) (mode : RerollMode) (meets : Int → Bool)
    (spare : Nat) :
    Traced limits P (fun draws r => shown r.1 = draws) (replace · sides mode meets spare) := by
  cases mode with
  | once =>
    show Traced limits P _ fun setup => draw setup sides >>= fun face =>
      pure (([{ sides, face }] : List Die), spare)
    refine .bind (draw_traced h) ?_
    rintro _ face rfl
    exact .pure rfl
  | continuous =>
    show Traced limits P _ fun setup => draw setup sides >>= fun face =>
      chase setup sides meets face spare
    refine .bind (draw_traced h) ?_
    rintro _ face rfl
    exact chase_traced h meets spare face

/-- The dice looked at are marked and no more; what is added is what was drawn. -/
theorem rerollEach_traced (h : sides.Rollable) (mode : RerollMode) (meets : Int → Bool)
    (dice : List Die) :
    ∀ spare : Nat, Traced limits P
      (fun draws r => shown r.marked = shown dice ∧ shown r.added = draws)
      (rerollEach · sides mode meets spare dice) := by
  induction dice with
  | nil => exact fun spare => .pure ⟨rfl, rfl⟩
  | cons die rest ih =>
    intro spare
    show Traced limits P _ fun setup =>
      if die.active && meets die.face then
        replace setup sides mode meets spare >>= fun r =>
          rerollEach setup sides mode meets r.2 rest >>= fun after =>
            pure ⟨{ die with rerolled := true } :: after.marked, r.1 ++ after.added, after.spare⟩
      else rerollEach setup sides mode meets spare rest >>= fun after =>
        pure { after with marked := die :: after.marked }
    refine .ite (fun _ => .bind (replace_traced h mode meets spare) ?_)
      fun _ => .bind (ih spare) ?_
    · rintro _ ⟨new, left⟩ rfl
      refine .bind (ih left) ?_
      rintro _ after ⟨hmarked, rfl⟩
      exact .pure ⟨by simp [hmarked], by simp⟩
    · rintro _ after ⟨hmarked, rfl⟩
      exact .pure ⟨by simp [hmarked], by simp⟩

/-- Rerolls append what they draw: induction on the modifiers. -/
theorem applyRerolls_traced (h : sides.Rollable) (rerolls : List Reroll) :
    (∀ m ∈ rerolls, Named P m.threshold) → ∀ (spare : Nat) (dice : List Die),
      Traced limits P (fun draws r => shown r.1 = shown dice ++ draws)
        (applyRerolls · sides rerolls spare dice) := by
  induction rerolls with
  | nil => exact fun _ spare dice => .pure (List.append_nil _).symm
  | cons m rest ih =>
    intro hnamed spare dice
    show Traced limits P _ fun setup => resolve setup m.threshold >>= fun threshold =>
      rerollEach setup sides m.mode (m.comparison.holds · threshold) spare dice >>= fun after =>
        applyRerolls setup sides rest after.spare (after.marked ++ after.added)
    refine .bind (resolve_traced (hnamed m List.mem_cons_self)) ?_
    rintro _ threshold rfl
    refine .bind (rerollEach_traced h m.mode _ dice spare) ?_
    rintro _ after ⟨hmarked, rfl⟩
    refine (ih (fun m' hm' => hnamed m' (List.mem_cons_of_mem m hm')) after.spare _).mono ?_
    intro draws r hr
    simpa [hmarked] using hr

/-! ## Explosions -/

/-- The dice passed and the dice ahead are those from before with the extra dice behind them.
    Either an explosion is spent or a die is passed, so the induction is on the explosions left, and
    inside on the dice. -/
theorem scan_traced (h : sides.Rollable) (meets : Int → Bool) (spare : Nat) :
    ∀ dice : List Die, Traced limits P
      (fun draws r => shown (r.passed ++ r.ahead) = shown dice ++ draws)
      (scan · sides meets spare dice) := by
  induction spare with
  | zero =>
    intro dice
    cases dice with
    | nil => exact Traced.congr (.pure rfl) fun setup _ => scan_nil setup sides meets 0
    | cons die rest =>
      exact Traced.congr (.pure (List.append_nil _).symm) fun setup _ =>
        scan_zero setup sides meets (die :: rest)
  | succ left ihspare =>
    intro dice
    induction dice with
    | nil => exact Traced.congr (.pure rfl) fun setup _ => scan_nil setup sides meets (left + 1)
    | cons die rest ihrest =>
      have hround : Traced limits P
          (fun draws r => shown (r.passed ++ r.ahead) = shown (die :: rest) ++ draws)
          fun setup => if die.active && !die.exploded && meets die.face then
            drawDie setup sides >>= fun extra => scan setup sides meets left (rest ++ [extra]) >>=
              fun r => pure { r with passed := { die with exploded := true } :: r.passed }
          else scan setup sides meets (left + 1) rest >>= fun r =>
            pure { r with passed := die :: r.passed } := by
        refine .ite (fun _ => .bind (drawDie_traced h) ?_) fun _ => .bind ihrest ?_
        · -- The extra die is the next one drawn, and it stands behind all others.
          rintro _ extra rfl
          refine .bind (ihspare (rest ++ [extra])) ?_
          intro draws r hr
          exact .pure (by simpa using hr)
        · intro draws r hr
          exact .pure (by simpa using hr)
      exact hround.congr fun setup _ => scan_cons setup sides meets left die rest

/-- Looking up the threshold of an explosion draws nothing. -/
theorem explosionThreshold_traced (m : Explosion) (h : ∀ x ∈ m.threshold, Named P x) :
    Traced limits P (fun draws _ => draws = []) (explosionThreshold · sides m) := by
  cases hm : m.threshold with
  | none => exact Traced.congr (.pure rfl) fun setup _ => by rw [explosionThreshold, hm]
  | some x => exact (resolve_traced (h x hm)).congr fun setup _ => by rw [explosionThreshold, hm]

/-- One round of explosions: dice are scanned, and what is next goes on from where the scan came. -/
theorem explosionRound_traced (h : sides.Rollable) (m : Explosion)
    (hm : ∀ x ∈ m.threshold, Named P x) (limit : Int) (spare : Nat) (dice : List Die)
    {next : Scan → Setup → Rolling (List Die)}
    (hnext : ∀ after : Scan, Traced limits P
      (fun draws r => shown r = shown (after.passed ++ after.ahead) ++ draws) (next after)) :
    Traced limits P (fun draws r => shown r = shown dice ++ draws) fun setup =>
      explosionThreshold setup sides m >>= fun threshold =>
        scan setup sides (m.comparison.holds · threshold) spare dice >>= fun after =>
          if after.spare = 0 ∧ after.ahead ≠ [] then
            note (.explosionLimit limit) >>= fun _ => next after setup
          else next after setup := by
  refine .bind (explosionThreshold_traced m hm) ?_
  rintro _ threshold rfl
  refine .bind (scan_traced h _ spare dice) ?_
  intro draws after hafter
  refine noteIf_traced _ ((hnext after).mono fun more r hr => ?_)
  rw [hr, hafter]
  simp

/-- Explosions append what they draw: induction on the modifiers. -/
theorem applyExplosions_traced (h : sides.Rollable) (explosions : List Explosion) :
    (∀ m ∈ explosions, ∀ x ∈ m.threshold, Named P x) → ∀ (count : Nat) (dice : List Die),
      Traced limits P (fun draws r => shown r = shown dice ++ draws)
        (applyExplosions · sides explosions count dice) := by
  induction explosions with
  | nil => exact fun _ count dice => .pure (List.append_nil _).symm
  | cons m rest ih =>
    intro hnamed count dice
    have hrest := ih fun m' hm' => hnamed m' (List.mem_cons_of_mem m hm')
    have hround := fun (limit : Int) (spare : Nat) =>
      explosionRound_traced h m (hnamed m List.mem_cons_self) limit spare dice fun after =>
        hrest (count + (spare - after.spare)) (after.passed ++ after.ahead)
    refine (hround (m.limit.getD limits.explosions)
      (m.limit.getD limits.explosions - count).toNat).congr fun setup hlim => ?_
    rw [← hlim]
    rfl

/-! ## Selections and success checks -/

/-- A mark does not show. -/
theorem shown_dropAt (places : List Nat) (dice : List Die) :
    shown (dropAt places dice) = shown dice := by
  have hmark : ∀ entry : Die × Nat,
      (fun die : Die => (die.sides, die.face))
        (if entry.2 ∈ places then { entry.1 with dropped := true } else entry.1) =
          (entry.1.sides, entry.1.face) := by
    intro entry
    split <;> rfl
  rw [shown, dropAt, List.map_map]
  calc
    dice.zipIdx.map _ = dice.zipIdx.map fun entry => (entry.1.sides, entry.1.face) :=
      List.map_congr_left fun entry _ => hmark entry
    _ = (dice.zipIdx.map (·.1)).map fun die => (die.sides, die.face) := by rw [List.map_map]; rfl
    _ = shown dice := by rw [List.zipIdx_map_fst, shown]

/-- Selections draw nothing and leave the faces as they are: induction on the modifiers. -/
theorem applySelections_traced (selections : List Selection) :
    (∀ m ∈ selections, Named P m.count) → ∀ dice : List Die,
      Traced limits P (fun draws r => shown r = shown dice ++ draws)
        (applySelections · selections dice) := by
  induction selections with
  | nil => exact fun _ dice => .pure (List.append_nil _).symm
  | cons m rest ih =>
    intro hnamed dice
    have hrest := ih fun m' hm' => hnamed m' (List.mem_cons_of_mem m hm')
    show Traced limits P _ fun setup => resolve setup m.count >>= fun count =>
      if count < 0 then refuse (.negativeSelection count)
      else applySelections setup rest (m.action.apply m.extreme count.toNat dice)
    refine .bind (resolve_traced (hnamed m List.mem_cons_self)) ?_
    rintro _ count rfl
    refine .ite (fun _ => .refuse _) fun _ => (hrest _).mono fun draws r hr => ?_
    rw [SelectionAction.apply, shown_dropAt] at hr
    exact hr

/-- Looking up the thresholds of success checks draws nothing. -/
theorem resolveChecks_traced (checks : List SuccessCheck)
    (hnamed : ∀ m ∈ checks, Named P m.threshold) :
    Traced limits P (fun draws _ => draws = []) (resolveChecks · checks) := by
  induction checks with
  | nil => exact .pure rfl
  | cons m rest ih =>
    have hrest := ih fun m' hm' => hnamed m' (List.mem_cons_of_mem m hm')
    show Traced limits P _ fun setup => resolve setup m.threshold >>= fun threshold =>
      resolveChecks setup rest >>= fun more => pure ((m.comparison, threshold) :: more)
    refine .bind (resolve_traced (hnamed m List.mem_cons_self)) ?_
    rintro _ threshold rfl
    refine .bind hrest ?_
    rintro _ more rfl
    exact .pure rfl

/-- Marking successes leaves the faces as they are. -/
theorem shown_markSuccesses (checks : List (Comparison × Int)) (dice : List Die) :
    shown (markSuccesses checks dice) = shown dice := by
  induction dice with
  | nil => rfl
  | cons die rest ih =>
    rw [markSuccesses, List.map_cons, shown_cons, shown_cons, ← markSuccesses, ih]
    split <;> rfl

/-- Counting up draws nothing and leaves the faces as they are. -/
theorem countUp_traced (checks : List SuccessCheck) (hnamed : ∀ m ∈ checks, Named P m.threshold)
    (dice : List Die) :
    Traced limits P (fun draws tally => shown tally.dice = shown dice ++ draws)
      (countUp · checks dice) := by
  show Traced limits P (fun draws (tally : Tally) => shown tally.dice = shown dice ++ draws)
    fun setup => if checks.isEmpty then pure { value := activeSum dice, dice }
    else resolveChecks setup checks >>= fun values =>
      pure
        { value := successCount (markSuccesses values dice)
          dice := markSuccesses values dice
          successes := some (successCount (markSuccesses values dice)) }
  refine .ite (fun _ => .pure (List.append_nil _).symm) fun _ =>
    .bind (resolveChecks_traced checks hnamed) ?_
  rintro _ values rfl
  exact .pure (by rw [shown_markSuccesses]; simp)

/-! ## Terms -/

/-- Looking up a size draws nothing, and a size that is let through can be rolled. -/
theorem resolveSides_traced {sides : Sides Operand} (h : NamedSides P sides) :
    Traced limits P (fun draws size => draws = [] ∧ Sides.Rollable size)
      (resolveSides · sides) := by
  cases sides with
  | fate => exact .pure ⟨rfl, trivial⟩
  | faces x =>
    have hsize : Traced limits P (fun draws size => draws = [] ∧ Sides.Rollable size)
        fun setup => resolveWithin setup .sides 1 limits.sides x >>= fun n => pure (.faces n) := by
      refine .bind (resolveWithin_traced h .sides 1 limits.sides) ?_
      rintro _ n ⟨rfl, hn, -⟩
      exact .pure ⟨rfl, hn⟩
    refine hsize.congr fun setup hlim => ?_
    rw [resolveSides_faces, hlim]

/-- What is picked out of modifiers inherits what is known of the names in them. -/
theorem forall_mem_picked {α : Type} {modifiers : List Modifier} {pick : Modifier → Option α}
    {Q : α → Prop} (h : ∀ m ∈ modifiers, NamedIn P m)
    (hpick : ∀ m a, pick m = some a → NamedIn P m → Q a) :
    ∀ a ∈ modifiers.filterMap pick, Q a := by
  intro a ha
  obtain ⟨m, hm, hma⟩ := List.mem_filterMap.mp ha
  exact hpick m a hma (h m hm)

/-- What is known of the names in modifiers, kind by kind. -/
theorem namedIn_by_kind {modifiers : List Modifier} (h : ∀ m ∈ modifiers, NamedIn P m) :
    (∀ m ∈ Modifier.rerolls modifiers, Named P m.threshold) ∧
      (∀ m ∈ Modifier.explosions modifiers, ∀ x ∈ m.threshold, Named P x) ∧
        (∀ m ∈ Modifier.selections modifiers, Named P m.count) ∧
          ∀ m ∈ Modifier.successChecks modifiers, Named P m.threshold := by
  refine ⟨?_, ?_, ?_, ?_⟩
  all_goals
    refine forall_mem_picked h fun m a hma hm => ?_
    cases m <;> cases hma
    exact hm

/-- Dice of a term that await its success checks: how many were asked for, their size, and what lies
    there. -/
structure Selected where
  count : Int
  size : Sides Int
  dice : List Die

/-- Rolls a dice term up to its success checks. -/
def selectDice (setup : Setup) (count : Operand) (sides : Sides Operand)
    (modifiers : List Modifier) : Rolling Selected := do
  let count ← resolveWithin setup .dice 1 setup.limits.dice count
  let size ← resolveSides setup sides
  let dice ← drawDice setup size none count.toNat
  let (dice, _) ←
    applyRerolls setup size (Modifier.rerolls modifiers) setup.limits.rerolls.toNat dice
  let dice ← applyExplosions setup size (Modifier.explosions modifiers) 0 dice
  let dice ← applySelections setup (Modifier.selections modifiers) dice
  return ⟨count, size, dice⟩

/-- Counts up dice that were selected, and notes what they came to. -/
def concludeDice (setup : Setup) (modifiers : List Modifier) (selected : Selected) :
    Rolling Tally := do
  let tally ← countUp setup (Modifier.successChecks modifiers) selected.dice
  note (.resolved selected.count selected.size modifiers.length (tally.dice.map (·.face))
    tally.value)
  return tally

/-- A dice term selects and concludes. -/
theorem diceTerm_eq (setup : Setup) (count : Operand) (sides : Sides Operand)
    (modifiers : List Modifier) :
    diceTerm setup count sides modifiers =
      selectDice setup count sides modifiers >>= concludeDice setup modifiers := by
  simp only [diceTerm, selectDice, concludeDice, bind_assoc, pure_bind]

/-- The dice of a term, up to its selections, are its draws in order. -/
theorem selectDice_traced {count : Operand} {sides : Sides Operand} {modifiers : List Modifier}
    (hcount : Named P count) (hsides : NamedSides P sides)
    (hmodifiers : ∀ m ∈ modifiers, NamedIn P m) :
    Traced limits P (fun draws r => shown r.dice = draws)
      (selectDice · count sides modifiers) := by
  obtain ⟨hrerolls, hexplosions, hselections, -⟩ := namedIn_by_kind hmodifiers
  have hdice : Traced limits P (fun draws (r : Selected) => shown r.dice = draws) fun setup =>
      resolveWithin setup .dice 1 limits.dice count >>= fun n =>
      resolveSides setup sides >>= fun size =>
      drawDice setup size none n.toNat >>= fun first =>
      applyRerolls setup size (Modifier.rerolls modifiers) limits.rerolls.toNat first >>= fun r =>
      applyExplosions setup size (Modifier.explosions modifiers) 0 r.1 >>= fun exploded =>
      applySelections setup (Modifier.selections modifiers) exploded >>= fun selected =>
      pure ⟨n, size, selected⟩ := by
    refine .bind (resolveWithin_traced hcount .dice 1 limits.dice) ?_
    rintro _ n ⟨rfl, -⟩
    refine .bind (resolveSides_traced hsides) ?_
    rintro _ size ⟨rfl, hsize⟩
    refine .bind (drawDice_traced hsize none n.toNat) ?_
    rintro _ first rfl
    refine .bind (applyRerolls_traced hsize _ hrerolls _ first) ?_
    rintro draws₁ ⟨rerolled, spare⟩ h₁
    refine .bind (applyExplosions_traced hsize _ hexplosions 0 rerolled) ?_
    rintro draws₂ exploded h₂
    refine .bind (applySelections_traced _ hselections exploded) ?_
    rintro draws₃ selected h₃
    refine .pure ?_
    show shown selected = _
    rw [h₃, h₂, h₁]
    simp
  refine hdice.congr fun setup hlim => ?_
  rw [← hlim]
  rfl

/-- The dice of a term are its draws in order. -/
theorem diceTerm_traced {count : Operand} {sides : Sides Operand} {modifiers : List Modifier}
    (hcount : Named P count) (hsides : NamedSides P sides)
    (hmodifiers : ∀ m ∈ modifiers, NamedIn P m) :
    Traced limits P (fun draws tally => shown tally.dice = draws)
      (diceTerm · count sides modifiers) := by
  simp only [diceTerm_eq]
  refine .bind (selectDice_traced hcount hsides hmodifiers) ?_
  rintro _ selected rfl
  refine .bind (countUp_traced _ (namedIn_by_kind hmodifiers).2.2.2 selected.dice) ?_
  rintro draws tally htally
  refine .bind (note_traced _) ?_
  rintro _ _ rfl
  refine .pure ?_
  rw [htally]
  simp

/-! ## Hope and Fear -/

/-- The draws of a Hope/Fear roll: both dice, then one pool, then the other. -/
def drawHopeFear (setup : Setup) (advantages disadvantages : Nat) : Rolling Tally := do
  let hope ← draw setup pairSides
  let fear ← draw setup pairSides
  let helping ← drawDice setup poolSides (some Role.advantage) advantages
  let hindering ← drawDice setup poolSides (some Role.disadvantage) disadvantages
  return {
    value := hope + fear + best helping - best hindering
    dice := [{ sides := pairSides, face := hope, role := some Role.hope },
      { sides := pairSides, face := fear, role := some Role.fear }] ++ helping ++ hindering
    pair := some ⟨hope, fear⟩ }

/-- A Hope/Fear roll looks up both of its pools, notes modifiers that it ignores, and draws. -/
theorem hopeFearTerm_eq (setup : Setup) (advantage disadvantage : Operand)
    (modifiers : List Modifier) :
    hopeFearTerm setup advantage disadvantage modifiers =
      resolveWithin setup .advantage 0 setup.limits.dice advantage >>= fun m =>
      resolveWithin setup .disadvantage 0 setup.limits.dice disadvantage >>= fun n =>
      if !modifiers.isEmpty then
        note (.ignoredModifiers modifiers.length) >>= fun _ => drawHopeFear setup m.toNat n.toNat
      else drawHopeFear setup m.toNat n.toNat :=
  rfl

/-- The dice of a Hope/Fear roll are drawn in the order in which they are listed. -/
theorem drawHopeFear_traced (advantages disadvantages : Nat) :
    Traced limits P (fun draws tally => shown tally.dice = draws)
      (drawHopeFear · advantages disadvantages) := by
  have hpair : pairSides.Rollable := show (1 : Int) ≤ 12 by decide
  have hpool : poolSides.Rollable := show (1 : Int) ≤ 6 by decide
  refine .bind (draw_traced hpair) ?_
  rintro _ hope rfl
  refine .bind (draw_traced hpair) ?_
  rintro _ fear rfl
  refine .bind (drawDice_traced hpool _ advantages) ?_
  rintro _ helping rfl
  refine .bind (drawDice_traced hpool _ disadvantages) ?_
  rintro _ hindering rfl
  exact .pure (by simp)

/-- The dice of a Hope/Fear roll are its draws in order. -/
theorem hopeFearTerm_traced {advantage disadvantage : Operand} (modifiers : List Modifier)
    (hadvantage : Named P advantage) (hdisadvantage : Named P disadvantage) :
    Traced limits P (fun draws tally => shown tally.dice = draws)
      (hopeFearTerm · advantage disadvantage modifiers) := by
  have hterm : Traced limits P (fun draws (tally : Tally) => shown tally.dice = draws) fun setup =>
      resolveWithin setup .advantage 0 limits.dice advantage >>= fun m =>
      resolveWithin setup .disadvantage 0 limits.dice disadvantage >>= fun n =>
      if !modifiers.isEmpty then
        note (.ignoredModifiers modifiers.length) >>= fun _ => drawHopeFear setup m.toNat n.toNat
      else drawHopeFear setup m.toNat n.toNat := by
    refine .bind (resolveWithin_traced hadvantage .advantage 0 limits.dice) ?_
    rintro _ m ⟨rfl, -⟩
    refine .bind (resolveWithin_traced hdisadvantage .disadvantage 0 limits.dice) ?_
    rintro _ n ⟨rfl, -⟩
    exact noteIf_traced _ (drawHopeFear_traced m.toNat n.toNat)
  refine hterm.congr fun setup hlim => ?_
  rw [← hlim]
  rfl

/-! ## Expressions -/

/-- A binary operation rolls its left side first. -/
theorem roll_binary (op : Operator) (left right : Expr) (setup : Setup) (room : Nat) :
    (Expr.binary op left right).roll setup (room + 1) =
      (left.roll setup room >>= fun l => right.roll setup room >>= fun r =>
        match op.apply l.value r.value with
        | .ok value => pure (l.combine value r)
        | .error hazard => refuse hazard) :=
  rfl

/-- A binary operation that comes to a tally has rolled both of its sides, and combines their
    tallies with the value of the operator. -/
theorem of_roll_binary {op : Operator} {left right : Expr} {setup : Setup} {room : Nat}
    {before after : Ledger} {tally : Tally}
    (h : (Expr.binary op left right).roll setup room before = .ok tally after) :
    ∃ less l mid r value, left.roll setup less before = .ok l mid ∧
      right.roll setup less mid = .ok r after ∧ op.apply l.value r.value = .ok value ∧
        tally = l.combine value r := by
  cases room with
  | zero => cases h
  | succ less =>
    rw [roll_binary] at h
    obtain ⟨l, mid, hl, hrest⟩ := Run.bind_eq_ok.mp h
    obtain ⟨r, last, hr, hvalue⟩ := Run.bind_eq_ok.mp hrest
    cases happly : op.apply l.value r.value with
    | error hazard =>
      rw [happly] at hvalue
      cases hvalue
    | ok value =>
      rw [happly] at hvalue
      cases hvalue
      exact ⟨less, l, mid, r, value, hl, hr, happly, rfl⟩

/-- **The record of an expression**: induction on it, for any room that is left. -/
theorem roll_traced {expr : Expr} (h : NamedAll P expr) :
    ∀ room : Nat, Traced limits P (fun draws tally => shown tally.dice = draws)
      (expr.roll · room) := by
  induction expr with
  | number n => exact fun room => .pure rfl
  | named name =>
    intro room
    show Traced limits P (fun draws (tally : Tally) => shown tally.dice = draws) fun setup =>
      resolve setup (.named name) >>= fun n => pure { value := n }
    refine .bind (resolve_traced h) ?_
    rintro _ n rfl
    exact .pure rfl
  | dice count sides modifiers =>
    exact fun room => diceTerm_traced h.1 h.2.1 h.2.2
  | hopeFear advantage disadvantage modifiers =>
    exact fun room => hopeFearTerm_traced modifiers h.1 h.2
  -- Where all names pass nothing is missing.
  | missing => exact h.elim
  | binary op left right ihl ihr =>
    intro room
    cases room with
    | zero => exact .refuse .tooLong
    | succ room =>
      simp only [roll_binary]
      refine .bind (ihl h.1 room) ?_
      rintro _ l rfl
      refine .bind (ihr h.2 room) ?_
      rintro _ r rfl
      cases op.apply l.value r.value with
      | ok value => exact .pure (by simp [Tally.combine])
      | error hazard => exact .refuse hazard
  | target inner comparison threshold ih =>
    intro room
    cases room with
    | zero => exact .refuse .tooLong
    | succ room =>
      show Traced limits P _ fun setup => inner.roll setup room >>= fun tally =>
        resolve setup threshold >>= fun n => pure (tally.check comparison n)
      refine .bind (ih h.1 room) ?_
      rintro _ tally rfl
      refine .bind (resolve_traced h.2) ?_
      rintro _ n rfl
      exact .pure (by simp [Tally.check])

/-- What comes to a tally has no missing part. -/
theorem namedAll_of_roll_eq_ok {expr : Expr} {setup : Setup} :
    ∀ (room : Nat) (tally : Tally) (ledger ledger' : Ledger),
      expr.roll setup room ledger = .ok tally ledger' → NamedAll (fun _ => True) expr := by
  induction expr with
  | number n => exact fun _ _ _ _ _ => trivial
  | named name => exact fun _ _ _ _ _ => trivial
  | dice count sides modifiers =>
    exact fun _ _ _ _ _ => ⟨named_any count, namedSides_any sides, fun m _ => namedIn_any m⟩
  | hopeFear advantage disadvantage modifiers =>
    exact fun _ _ _ _ _ => ⟨named_any advantage, named_any disadvantage⟩
  | missing =>
    intro room tally ledger ledger' h
    cases h
  | binary op left right ihl ihr =>
    intro room tally ledger ledger' h
    cases room with
    | zero => cases h
    | succ room =>
      obtain ⟨l, _, hl, hrest⟩ := Run.bind_eq_ok.mp h
      obtain ⟨r, _, hr, -⟩ := Run.bind_eq_ok.mp hrest
      exact ⟨ihl room l _ _ hl, ihr room r _ _ hr⟩
  | target inner comparison threshold ih =>
    intro room tally ledger ledger' h
    cases room with
    | zero => cases h
    | succ room =>
      obtain ⟨t, _, ht, -⟩ := Run.bind_eq_ok.mp h
      exact ⟨ih room t _ _ ht, named_any threshold⟩

end Rolling

end Tabletop
