/-
  **Settings in use**: over all that can be done, every use gets the settings of the first success.

  1. **Valid settings** — what a reader gives that keeps to the bounds declared for the fields is
     valid.  The reader that puts settings together from layers is one of these.
  2. **History** — what settings are read from is told by the changes alone, and when they were
     asked for by the uses since the settings kept were last dropped.
  3. **What is kept** — after any steps the settings kept are those of the first use since then that
     succeeded, and if none did, none are kept.  A step keeps this up, so it holds throughout a run.
-/
import Mathlib.Data.List.Induction
import Tabletop.Settings.Reader
import Tabletop.Settings.Use

namespace Tabletop

/-! ## Valid settings -/

/-- Settings whose integers lie within the bounds of their fields are valid. -/
theorem Settings.valid_of_admits {settings : Settings}
    (h : ∀ field, ∀ n ∈ settings.integer? field, field.bounds.Admits n) : settings.Valid where
  explosions := (h .explodeLimit _ rfl).1 1 rfl
  rerolls := (h .rerollLimit _ rfl).1 1 rfl
  dice := (h .maxDice _ rfl).1 1 rfl
  sides := (h .maxSides _ rfl).1 1 rfl
  depth := ⟨(h .maxDepth _ rfl).1 1 rfl, (h .maxDepth _ rfl).2 100 rfl⟩

/-- The default of every field lies within its bounds. -/
theorem Settings.admits_default (field : Field) :
    ∀ n ∈ ({} : Settings).integer? field, field.bounds.Admits n := by
  cases field <;> decide

/-- An integer that is not complained of lies within the bounds. -/
theorem Bounds.admits_of_check {bounds : Bounds} {n m : Int} (h : bounds.check n = .ok m) :
    bounds.Admits m := by
  unfold Bounds.check at h
  split_ifs at h with hsmall hlarge
  cases h
  constructor
  · intro least hleast
    rw [Option.mem_def] at hleast
    simpa [hleast] using hsmall
  · intro most hmost
    rw [Option.mem_def] at hmost
    simpa [hmost] using hlarge

/-- The integer that layers give for a field lies within its bounds, if its default does. -/
theorem Layers.admits_of_integer {layers : Layers} {field : Field} {default n : Int}
    (hdefault : field.bounds.Admits default) (h : layers.integer field default = .ok n) :
    field.bounds.Admits n := by
  unfold Layers.integer at h
  split at h
  · cases h
    exact hdefault
  · next value _ =>
    cases hvalue : value.integer? with
    | error complaint =>
      rw [hvalue] at h
      cases h
    | ok given =>
      rw [hvalue] at h
      exact Bounds.admits_of_check h

/-- Putting settings together from layers keeps to the bounds. -/
theorem Settings.enforces_ofOrigin : SettingsReader.Enforces Settings.ofOrigin := by
  intro origin settings h field n hn
  unfold Settings.ofOrigin Settings.ofLayers at h
  dsimp only at h
  split at h
  · next he hr hd hs hdepth _ _ =>
    cases h
    have hdefault := Settings.admits_default field
    cases field with
    | explodeLimit => cases hn; exact Layers.admits_of_integer (hdefault _ rfl) he
    | rerollLimit => cases hn; exact Layers.admits_of_integer (hdefault _ rfl) hr
    | maxDice => cases hn; exact Layers.admits_of_integer (hdefault _ rfl) hd
    | maxSides => cases hn; exact Layers.admits_of_integer (hdefault _ rfl) hs
    | maxDepth => cases hn; exact Layers.admits_of_integer (hdefault _ rfl) hdepth
    | strict => cases hn
    | debug => cases hn
  · cases h

namespace Cache

variable {E : Type} {read : SettingsReader E} {start cache : Cache} {steps : List Step}

/-! ## Access -/

/-- An access gets the settings kept and changes nothing. -/
theorem access_of_kept {entry : Nat × Settings} (h : cache.kept = some entry) :
    cache.access read = (.ok entry, cache) := by
  rw [access, h]

/-- Where none are kept, an access keeps the settings that it has read. -/
theorem access_of_ok {settings : Settings} (h : cache.kept = none)
    (hread : read cache.origin = .ok settings) :
    cache.access read = (.ok (cache.serial, settings),
      { cache with kept := some (cache.serial, settings), serial := cache.serial + 1 }) := by
  rw [access, h, hread]

/-- Where none are kept and none can be read, an access changes nothing. -/
theorem access_of_error {e : E} (h : cache.kept = none) (hread : read cache.origin = .error e) :
    cache.access read = (.error e, cache) := by
  rw [access, h, hread]

/-- The settings that an access gets are kept from then on. -/
theorem kept_access_of_ok {entry : Nat × Settings} (h : (cache.access read).1 = .ok entry) :
    (cache.access read).2.kept = some entry := by
  cases hkept : cache.kept with
  | some kept =>
    rw [access_of_kept hkept] at h ⊢
    cases h
    exact hkept
  | none =>
    cases hread : read cache.origin with
    | ok settings =>
      rw [access_of_ok hkept hread] at h ⊢
      cases h
      rfl
    | error e =>
      rw [access_of_error hkept hread] at h
      cases h

/-- An access fails only while nothing is kept, and leaves nothing kept. -/
theorem access_failed {e : E} (h : (cache.access read).1 = .error e) :
    cache.kept = none ∧ read cache.origin = .error e ∧ (cache.access read).2 = cache := by
  cases hkept : cache.kept with
  | some kept =>
    rw [access_of_kept hkept] at h
    cases h
  | none =>
    cases hread : read cache.origin with
    | ok settings =>
      rw [access_of_ok hkept hread] at h
      cases h
    | error other =>
      rw [access_of_error hkept hread] at h ⊢
      cases h
      exact ⟨rfl, rfl, rfl⟩

/-- An access does not change what settings are read from. -/
theorem origin_access (cache : Cache) : (cache.access read).2.origin = cache.origin := by
  unfold access
  split
  · rfl
  · split <;> rfl

/-- Where nothing is kept, a use is answered with what is read. -/
theorem answer_of_kept_none (h : cache.kept = none) (use : Use) :
    (cache.answer read use).1 = (read cache.origin).map
      fun settings => use.outcome (cache.serial, settings) := by
  show (cache.access read).1.map use.outcome = _
  cases hread : read cache.origin with
  | ok settings =>
    rw [access_of_ok h hread]
    rfl
  | error e =>
    rw [access_of_error h hread]
    rfl

/-! ## Runs -/

/-- The cache that steps leave. -/
def after (read : SettingsReader E) (start : Cache) (steps : List Step) : Cache :=
  (start.run read steps).2

theorem run_cons (start : Cache) (step : Step) (steps : List Step) :
    start.run read (step :: steps) =
      ((start.step read step).1 :: ((start.step read step).2.run read steps).1,
        ((start.step read step).2.run read steps).2) :=
  rfl

/-- A run in two parts: the second goes on from the cache that the first leaves. -/
theorem run_append (start : Cache) (first second : List Step) :
    start.run read (first ++ second) =
      ((start.run read first).1 ++ ((start.after read first).run read second).1,
        ((start.after read first).run read second).2) := by
  induction first generalizing start with
  | nil => rfl
  | cons step first ih =>
    rw [List.cons_append, run_cons, ih]
    rfl

/-- Every step has its place among the answers, be it answered or not. -/
theorem length_run (start : Cache) (steps : List Step) :
    (start.run read steps).1.length = steps.length := by
  induction steps generalizing start with
  | nil => rfl
  | cons step steps ih => exact congrArg (· + 1) (ih _)

theorem after_append (start : Cache) (first second : List Step) :
    start.after read (first ++ second) = (start.after read first).after read second := by
  rw [after, run_append]
  rfl

/-- What one more step leaves. -/
theorem after_concat (start : Cache) (steps : List Step) (step : Step) :
    start.after read (steps ++ [step]) = ((start.after read steps).step read step).2 :=
  after_append start steps [step]

/-- The answer to a use in the middle of a run is that of the cache as it is left before. -/
theorem run_use (start : Cache) (before later : List Step) (use : Use) :
    (start.run read (before ++ .use use :: later)).1[before.length]? =
      some (some ((start.after read before).answer read use).1) := by
  rw [run_append, List.getElem?_append_right (Nat.le_of_eq (length_run start before)),
    length_run, Nat.sub_self]
  rfl

/-! ## What settings are read from -/

/-- What settings are read from behind a step: changes change it, and nothing else does. -/
def Step.originFrom (origin : Origin) : Step → Origin
  | .change c => c.apply origin
  | .clear => origin
  | .use _ => origin

/-- What settings are read from behind steps. -/
def originAfter (start : Cache) (steps : List Step) : Origin :=
  steps.foldl Step.originFrom start.origin

theorem origin_step (cache : Cache) (step : Step) :
    (cache.step read step).2.origin = step.originFrom cache.origin := by
  cases step with
  | change change => rfl
  | clear => rfl
  | use use => exact origin_access cache

/-- The cache reads settings from what the changes have made of it, whatever was used or dropped. -/
theorem origin_after (read : SettingsReader E) (start : Cache) (steps : List Step) :
    (start.after read steps).origin = start.originAfter steps := by
  induction steps generalizing start with
  | nil => rfl
  | cons step steps ih =>
    have hrest := ih (start.step read step).2
    rw [originAfter, origin_step] at hrest
    exact hrest

/-! ## Uses since the settings kept were last dropped -/

/-- The uses since the settings kept were last dropped: one of them stands right behind the steps
    `past`. -/
def UsedAt (past steps : List Step) : Prop :=
  ∃ use later, steps = past ++ .use use :: later ∧ .clear ∉ later

/-- One more step adds a use if it is one, and leaves no use if it drops the settings kept. -/
theorem usedAt_concat {past steps : List Step} {step : Step} :
    UsedAt past (steps ++ [step]) ↔
      step ≠ .clear ∧ UsedAt past steps ∨ past = steps ∧ ∃ use, step = .use use := by
  constructor
  · rintro ⟨use, later, heq, hlater⟩
    cases later using List.reverseRecOn with
    | nil =>
      obtain ⟨rfl, hstep⟩ := List.append_inj' heq rfl
      exact Or.inr ⟨rfl, use, (List.cons.inj hstep).1⟩
    | append_singleton later last =>
      rw [← List.cons_append, ← List.append_assoc] at heq
      obtain ⟨rfl, hstep⟩ := List.append_inj' heq rfl
      obtain rfl := (List.cons.inj hstep).1
      simp only [List.mem_append, List.mem_singleton, not_or] at hlater
      exact Or.inl ⟨fun hclear => hlater.2 hclear.symm, use, later, rfl, hlater.1⟩
  · rintro (⟨hne, use, later, rfl, hlater⟩ | ⟨rfl, use, rfl⟩)
    · refine ⟨use, later ++ [step], by simp, ?_⟩
      simp only [List.mem_append, List.mem_singleton, not_or]
      exact ⟨hlater, Ne.symm hne⟩
    · exact ⟨use, [], rfl, List.not_mem_nil⟩

/-- A use right behind the steps `past` succeeds, with these settings. -/
def Serves (read : SettingsReader E) (start : Cache) (past : List Step) (entry : Nat × Settings) :
    Prop :=
  ((start.after read past).access read).1 = .ok entry

/-- The use right behind the steps `past` was the first to succeed since the settings kept were last
    dropped, and these are the settings it had. -/
structure Decides (read : SettingsReader E) (start : Cache) (past steps : List Step)
    (entry : Nat × Settings) : Prop where
  used : UsedAt past steps
  serves : start.Serves read past entry
  first : ∀ earlier, UsedAt earlier past → ∀ other, ¬ start.Serves read earlier other

/-! ## What is kept -/

/-- What is kept behind steps: the settings of the first use that succeeded, as they were read then,
    and nothing if none did. -/
def Keeps (read : SettingsReader E) (start : Cache) (steps : List Step) :
    Option (Nat × Settings) → Prop
  | none => ∀ past, UsedAt past steps → ∀ entry, ¬ start.Serves read past entry
  | some entry => ∃ past, start.Decides read past steps entry ∧
      read (start.originAfter past) = .ok entry.2

/-- The settings that a use has are those of the first one that succeeded, be it this one. -/
theorem decides_of_serves (h : start.Keeps read steps (start.after read steps).kept) (use : Use)
    {entry : Nat × Settings} (hserves : start.Serves read steps entry) :
    ∃ past, start.Decides read past (steps ++ [.use use]) entry ∧
      read (start.originAfter past) = .ok entry.2 := by
  cases hkept : (start.after read steps).kept with
  | some kept =>
    rw [hkept] at h
    obtain ⟨past, hdecides, hread⟩ := h
    rw [Serves, access_of_kept hkept] at hserves
    cases hserves
    have hused : UsedAt past (steps ++ [.use use]) :=
      usedAt_concat.mpr (Or.inl ⟨by simp, hdecides.used⟩)
    exact ⟨past, ⟨hused, hdecides.serves, hdecides.first⟩, hread⟩
  | none =>
    rw [hkept] at h
    refine ⟨steps, ⟨usedAt_concat.mpr (Or.inr ⟨rfl, use, rfl⟩), hserves, h⟩, ?_⟩
    rw [← origin_after read]
    cases hread : read (start.after read steps).origin with
    | ok settings =>
      rw [Serves, access_of_ok hkept hread] at hserves
      cases hserves
      rfl
    | error e =>
      rw [Serves, access_of_error hkept hread] at hserves
      cases hserves

/-- A change leaves what is kept as it is. -/
theorem keeps_change {kept : Option (Nat × Settings)} (change : Change)
    (h : start.Keeps read steps kept) : start.Keeps read (steps ++ [.change change]) kept := by
  have hused : ∀ past, UsedAt past (steps ++ [.change change]) ↔ UsedAt past steps := by
    intro past
    rw [usedAt_concat]
    constructor
    · rintro (⟨-, hpast⟩ | ⟨-, use, hstep⟩)
      · exact hpast
      · cases hstep
    · exact fun hpast => Or.inl ⟨by simp, hpast⟩
  cases kept with
  | none => exact fun past hpast => h past ((hused past).mp hpast)
  | some entry =>
    obtain ⟨past, hdecides, hread⟩ := h
    exact ⟨past, ⟨(hused past).mpr hdecides.used, hdecides.serves, hdecides.first⟩, hread⟩

/-- A step keeps up what is said of the settings kept. -/
theorem keeps_step (h : start.Keeps read steps (start.after read steps).kept) (step : Step) :
    start.Keeps read (steps ++ [step]) (start.after read (steps ++ [step])).kept := by
  rw [after_concat]
  cases step with
  | change change => exact keeps_change change h
  | clear =>
    intro past hpast
    rcases usedAt_concat.mp hpast with ⟨hne, -⟩ | ⟨-, use, hstep⟩
    · exact absurd rfl hne
    · cases hstep
  | use use =>
    show start.Keeps read _ ((start.after read steps).access read).2.kept
    cases haccess : ((start.after read steps).access read).1 with
    | ok entry =>
      rw [kept_access_of_ok haccess]
      exact decides_of_serves h use haccess
    | error e =>
      obtain ⟨hkept, -, hcache⟩ := access_failed haccess
      rw [hcache, hkept]
      rw [hkept] at h
      intro past hpast entry hserves
      rcases usedAt_concat.mp hpast with ⟨-, hpast⟩ | ⟨rfl, -⟩
      · exact h past hpast entry hserves
      · rw [Serves, haccess] at hserves
        cases hserves

/-- So it holds behind all steps from a cache without settings.  Induction from the last step. -/
theorem keeps_after (read : SettingsReader E) (h : start.kept = none) (steps : List Step) :
    start.Keeps read steps (start.after read steps).kept := by
  induction steps using List.reverseRecOn with
  | nil =>
    rw [show (start.after read []).kept = none from h]
    rintro past ⟨use, later, heq, -⟩
    simp at heq
  | append_singleton steps step ih => exact keeps_step ih step

/-- Without a use, nothing comes to be kept. -/
theorem kept_after_of_unused (h : cache.kept = none) (hsteps : ∀ use, .use use ∉ steps) :
    (cache.after read steps).kept = none := by
  induction steps generalizing cache with
  | nil => exact h
  | cons step steps ih =>
    have hrest : ∀ use, .use use ∉ steps := fun use hmem =>
      hsteps use (List.mem_cons_of_mem _ hmem)
    have hkept : (cache.step read step).2.kept = none := by
      cases step with
      | change change => exact h
      | clear => rfl
      | use use => exact absurd List.mem_cons_self (hsteps use)
    exact ih hkept hrest

/-! ## Answers -/

/-- A use right behind the steps `before` is refused: none has succeeded, and what settings are read
    from is complained of.  Nothing is kept then, so that the next use has what is read at its
    own time. -/
structure Refused (read : SettingsReader E) (start : Cache) (before : List Step) (use : Use)
    (e : E) : Prop where
  first : ∀ past, UsedAt past before → ∀ entry, ¬ start.Serves read past entry
  origin : read (start.originAfter before) = .error e
  kept : (start.after read (before ++ [.use use])).kept = none
  next : ∀ between other, (∀ use, .use use ∉ between) →
    ∃ serial, ((start.after read (before ++ .use use :: between)).answer read other).1 =
      (read (start.originAfter (before ++ .use use :: between))).map
        fun settings => other.outcome (serial, settings)

/-- Where an access behind the steps fails, the use is refused. -/
theorem refused_of_access_error {before : List Step}
    (h : start.Keeps read before (start.after read before).kept) (use : Use) {e : E}
    (hfailed : ((start.after read before).access read).1 = .error e) :
    start.Refused read before use e := by
  obtain ⟨hkept, hread, hcache⟩ := access_failed hfailed
  have hleft : (start.after read (before ++ [.use use])).kept = none := by
    rw [after_concat]
    show ((start.after read before).access read).2.kept = none
    rw [hcache, hkept]
  refine ⟨?_, ?_, hleft, fun between other hunused => ?_⟩
  · rwa [hkept] at h
  · rwa [origin_after] at hread
  · have hsteps : before ++ .use use :: between = (before ++ [.use use]) ++ between := by simp
    rw [hsteps, ← origin_after read, after_append]
    exact ⟨_, answer_of_kept_none (kept_after_of_unused hleft hunused) other⟩

/-- **Settings in use.**  Let what reads settings keep to the bounds, and let nothing be kept at the
    beginning.  Then a use has, whatever is done before and after it, the very settings that the
    first use had which succeeded since the settings kept were last dropped, be it this one: they
    are what was read then, and valid.  If there is no such use, it is refused, and the answer is
    what is wrong with what it would be read from. -/
theorem run_answers_use (henforces : read.Enforces) (h : start.kept = none)
    (before later : List Step) (use : Use) :
    ∃ answer,
      (start.run read (before ++ .use use :: later)).1[before.length]? = some (some answer) ∧
      ((∃ past entry, start.Decides read past (before ++ [.use use]) entry ∧
          read (start.originAfter past) = .ok entry.2 ∧ entry.2.Valid ∧
          answer = .ok (use.outcome entry)) ∨
        ∃ e, start.Refused read before use e ∧ answer = .error e) := by
  refine ⟨_, run_use start before later use, ?_⟩
  have hkeeps := keeps_after read h before
  have hanswer : ((start.after read before).answer read use).1 =
      ((start.after read before).access read).1.map use.outcome := rfl
  cases haccess : ((start.after read before).access read).1 with
  | ok entry =>
    obtain ⟨past, hdecides, hread⟩ := decides_of_serves hkeeps use haccess
    rw [haccess] at hanswer
    have hvalid := Settings.valid_of_admits (henforces _ _ hread)
    exact Or.inl ⟨past, entry, hdecides, hread, hvalid, hanswer⟩
  | error e =>
    rw [haccess] at hanswer
    exact Or.inr ⟨e, refused_of_access_error hkeeps use haccess, hanswer⟩

/-- What was wrong before the first success is not remembered, and what is wrong behind it is not
    noticed; settings are put together from layers. -/
theorem run_answers_use_kept :
    ∃ (read : SettingsReader (List (Field × Complaint))) (before : List Step),
      read = Settings.ofOrigin ∧ read.Enforces ∧
      before = [.change (.set "DICELANG_MAX_DICE" "lots"), .use .get,
        .change (.set "DICELANG_MAX_DICE" "7"), .use (.evaluate [] (Source.always 1) 9 "1d6"),
        .change (.set "DICELANG_MAX_DICE" "0")] ∧
      ({} : Cache).kept = none ∧
      ∃ past entry, Decides read {} past (before ++ [.use .get]) entry ∧
        read (originAfter {} past) = .ok entry.2 ∧ entry.2.Valid ∧
        entry = (0, { limits := { dice := 7 } }) := by
  refine ⟨_, _, rfl, Settings.enforces_ofOrigin, rfl, rfl, ?_⟩
  generalize hbefore : ([.change (.set "DICELANG_MAX_DICE" "lots"), .use .get,
    .change (.set "DICELANG_MAX_DICE" "7"), .use (.evaluate [] (Source.always 1) 9 "1d6"),
    .change (.set "DICELANG_MAX_DICE" "0")] : List Step) = before
  have hkept : (({} : Cache).after Settings.ofOrigin before).kept =
      some (0, { limits := { dice := 7 } }) := by
    subst hbefore
    decide +kernel
  obtain ⟨answer, hrun, h⟩ := run_answers_use Settings.enforces_ofOrigin
    (show ({} : Cache).kept = none from rfl) before [] .get
  have hfound : ((({} : Cache).after Settings.ofOrigin before).answer Settings.ofOrigin .get).1 =
      .ok (.settings 0 { limits := { dice := 7 } }) := by
    show Except.map _ ((({} : Cache).after Settings.ofOrigin before).access Settings.ofOrigin).1 = _
    rw [access_of_kept hkept]
    rfl
  rw [run_use, hfound] at hrun
  cases hrun
  obtain ⟨past, ⟨serial, settings⟩, hdecides, hread, hvalid, hentry⟩ | ⟨e, -, hrefused⟩ := h
  · cases hentry
    exact ⟨past, _, hdecides, hread, hvalid, rfl⟩
  · cases hrefused

end Cache

end Tabletop
