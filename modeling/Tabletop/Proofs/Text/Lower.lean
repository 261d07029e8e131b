/-
  Lower case is settled: a text in lower case is its own lower case.

  A character is *small* if lowering leaves it as it is, wherever it stands.  Lowering any character
  gives small ones: of ASCII each character is looked at; above it, no run of the table covers what
  a run maps to.  That is found by comparing runs with one another, not code points: what a run maps
  to lies before or behind another run, or both take every second code point and never meet.
-/
import Tabletop.Proofs.Text.Upper

namespace Tabletop.Text

/-! ## Small characters -/

/-- Lowering leaves the character as it is, wherever it stands. -/
structure Small (c : Char) : Prop where
  ne_sigma : c ≠ capitalSigma
  lower : lowerChar c = [c]

/-- A text of small letters is its own lower case. -/
theorem lowerFrom_of_small {text : List Char} (h : ∀ c ∈ text, Small c) (afterCased : Bool) :
    lowerFrom afterCased text = text := by
  induction text generalizing afterCased with
  | nil => rfl
  | cons c rest ih =>
    rw [List.forall_mem_cons] at h
    rw [lowerFrom, lowerHere, if_neg h.1.ne_sigma, h.1.lower, ih h.2]
    rfl

/-- A text of small characters is its own lower case. -/
theorem lower_of_small {text : List Char} (h : ∀ c ∈ text, Small c) : lower text = text :=
  lowerFrom_of_small h false

/-! ## What the tables map to -/

/-- A code point that no table maps: it is no capital of ASCII, has no sequence, and no run covers
    it. -/
structure Unmapped (n : Nat) : Prop where
  ascii : n < 65 ∨ 90 < n
  sequence : n ≠ 0x130
  runs : ∀ run ∈ lowerRuns, run.covers n = false

/-- An ASCII letter is lowered to an ASCII letter, and that is no capital. -/
theorem lower_ascii {c : Char} (h : c.toNat < 128) : c.toLower.toNat < 128 ∧
    (c.toLower.toNat < 65 ∨ 90 < c.toLower.toNat) :=
  forall_ascii (P := fun c => c.toLower.toNat < 128 ∧ (c.toLower.toNat < 65 ∨ 90 < c.toLower.toNat))
    (by decide) h

theorem toLower_of_unmapped {c : Char} (h : c.toNat < 128) (hc : c.toNat < 65 ∨ 90 < c.toNat) :
    c.toLower = c :=
  forall_ascii (P := fun c => c.toNat < 65 ∨ 90 < c.toNat → c.toLower = c) (by decide) h hc

theorem mem_sequences {n : Nat} {codes : List Nat} (h : lowerSequences.lookup n = some codes) :
    n = 0x130 ∧ codes = [0x69, 0x307] := by
  by_cases hn : n = 0x130
  · subst hn
    cases h
    exact ⟨rfl, rfl⟩
  · rw [lowerSequences, List.lookup_cons, beq_false_of_ne hn] at h
    cases h

/-- The one capital that is lowered by its neighbours is mapped by itself. -/
theorem covers_capitalSigma : ∃ run ∈ lowerRuns, run.covers capitalSigma.toNat = true := by
  decide +kernel

theorem small_of_unmapped {c : Char} (h : Unmapped c.toNat) : Small c := by
  constructor
  · rintro rfl
    obtain ⟨run, hrun, hcovers⟩ := covers_capitalSigma
    rw [h.runs run hrun] at hcovers
    cases hcovers
  · rw [lowerChar]
    split
    · next hascii => rw [toLower_of_unmapped hascii h.ascii]
    · have hseq : sequence? lowerSequences c = none := by
        rw [sequence?, lowerSequences, List.lookup_cons, beq_false_of_ne h.sequence]
        rfl
      have hrun : lowerRuns.find? (·.covers c.toNat) = none :=
        List.find?_eq_none.mpr fun run hrun => by simp [h.runs run hrun]
      rw [hseq, mapByRuns, hrun]
      rfl

/-! ## Runs compared -/

namespace CaseRun

/-- The code point that the first of a run maps to. -/
def low (run : CaseRun) : Nat := (run.first + run.shift).toNat

/-- The code point that the last of a run maps to. -/
def high (run : CaseRun) : Nat := (run.last + run.shift).toNat

/-- What the run maps to is not covered by the other one: it lies before or behind it, or where the
    other one takes every second code point, the run falls on those between. -/
def misses (run other : CaseRun) : Bool :=
  Nat.blt run.high other.first || Nat.blt other.last run.low ||
    ((Nat.beq run.step 2 || Nat.beq run.low run.high) && Nat.beq other.step 2 &&
      Nat.beq ((run.low + other.first) % 2) 1)

/-- What the run maps to is no capital of ASCII and has no sequence, and no run covers it. -/
def settles (run : CaseRun) : Bool :=
  (Nat.blt run.high 65 || Nat.blt 90 run.low) &&
    (Nat.blt run.high 0x130 || Nat.blt 0x130 run.low) &&
      decide (0 ≤ run.first + run.shift) && lowerRuns.all run.misses

end CaseRun

/-- The table of runs is settled. -/
theorem settles_lowerRuns : lowerRuns.all CaseRun.settles = true := by decide +kernel

theorem covers_eq_false_of_misses {run other : CaseRun} (h : run.misses other = true) {m : Nat}
    (hlow : run.low ≤ m) (hhigh : m ≤ run.high) (hstep : (m - run.low) % run.step = 0) :
    other.covers m = false := by
  simp only [CaseRun.misses, Bool.or_eq_true, Bool.and_eq_true, Nat.blt_eq, Nat.beq_eq] at h
  simp only [CaseRun.covers, Bool.and_eq_false_iff, decide_eq_false_iff_not, beq_eq_false_iff_ne]
  rcases h with (h | h) | ⟨⟨hrun | hrun, hother⟩, hparity⟩
  · omega
  · omega
  · rw [hrun] at hstep
    rw [hother]
    omega
  · rw [hother]
    omega

/-- What a run maps a code point to is not mapped any further. -/
theorem unmapped_of_covers {run : CaseRun} (hrun : run ∈ lowerRuns) {n : Nat}
    (h : run.covers n = true) : Unmapped (n + run.shift).toNat := by
  have hsettles := List.all_eq_true.mp settles_lowerRuns run hrun
  simp only [CaseRun.settles, Bool.and_eq_true, Bool.or_eq_true, Nat.blt_eq,
    decide_eq_true_eq] at hsettles
  simp only [CaseRun.covers, Bool.and_eq_true, decide_eq_true_eq, beq_iff_eq] at h
  obtain ⟨⟨⟨hascii, hsequence⟩, hshift⟩, hmisses⟩ := hsettles
  have hlow : run.low ≤ (n + run.shift).toNat := by
    rw [CaseRun.low]
    omega
  have hhigh : (n + run.shift).toNat ≤ run.high := by
    rw [CaseRun.high]
    omega
  have hstep : ((n + run.shift).toNat - run.low) % run.step = 0 := by
    have hsame : (n + run.shift).toNat - run.low = n - run.first := by
      rw [CaseRun.low]
      omega
    rw [hsame]
    exact h.2
  refine ⟨by omega, by omega, fun other hother => ?_⟩
  exact covers_eq_false_of_misses (List.all_eq_true.mp hmisses other hother) hlow hhigh hstep

/-! ## Texts -/

/-- A number that is no code point stands for the first one. -/
theorem toNat_ofNat (n : Nat) : (Char.ofNat n).toNat = n ∨ (Char.ofNat n).toNat = 0 := by
  by_cases hn : n.isValidChar
  · left
    rw [Char.ofNat, dif_pos hn]
    rfl
  · right
    rw [Char.ofNat, dif_neg hn]
    rfl

/-- ASCII is not above itself. -/
theorem unmapped_of_ascii {n : Nat} (h : n < 128) (hn : n < 65 ∨ 90 < n) : Unmapped n := by
  have hfirst : ∀ run ∈ lowerRuns, 128 ≤ run.first := by decide +kernel
  refine ⟨hn, by omega, fun run hrun => ?_⟩
  have := hfirst run hrun
  simp only [CaseRun.covers, Bool.and_eq_false_iff, decide_eq_false_iff_not]
  omega

/-- Lowering a character gives small ones. -/
theorem small_of_mem_lowerChar {c d : Char} (h : d ∈ lowerChar c) : Small d := by
  refine small_of_unmapped ?_
  rw [lowerChar] at h
  split at h
  · next hascii =>
    obtain rfl := List.mem_singleton.mp h
    obtain ⟨hlt, hn⟩ := lower_ascii hascii
    exact unmapped_of_ascii hlt hn
  · next hascii =>
    cases hseq : sequence? lowerSequences c with
    | some cs =>
      rw [hseq] at h
      obtain ⟨codes, hcodes, rfl⟩ := Option.map_eq_some_iff.mp hseq
      -- One letter only is lowered to two: the dotted capital I.
      obtain ⟨-, rfl⟩ := mem_sequences hcodes
      have hd : d = Char.ofNat 0x69 ∨ d = Char.ofNat 0x307 := by simpa using h
      rcases hd with rfl | rfl
      · exact unmapped_of_ascii (by decide) (by decide)
      · exact ⟨by decide, by decide, by decide +kernel⟩
    | none =>
      rw [hseq] at h
      obtain rfl := List.mem_singleton.mp h
      rw [mapByRuns]
      split
      · next run hfind =>
        have hcovers : run.covers c.toNat = true := by simpa using List.find?_some hfind
        have hmap := unmapped_of_covers (List.mem_of_find?_eq_some hfind) hcovers
        rcases toNat_ofNat (c.toNat + run.shift).toNat with hn | hn
        · rw [hn]
          exact hmap
        · rw [hn]
          exact unmapped_of_ascii (by decide) (by decide)
      · next hfind =>
        -- No run covers the character, so it is small itself.
        refine ⟨by omega, ?_, fun run hrun => ?_⟩
        · intro hn
          rw [sequence?, hn] at hseq
          cases hseq
        · simpa using List.find?_eq_none.mp hfind run hrun

/-- Lowering a text gives small characters. -/
theorem small_of_mem_lower {text : List Char} {d : Char} (h : d ∈ lower text) : Small d := by
  have hfrom : ∀ (afterCased : Bool) (text : List Char), d ∈ lowerFrom afterCased text →
      Small d := by
    intro afterCased text
    induction text generalizing afterCased with
    | nil => nofun
    | cons c rest ih =>
      intro h
      rw [lowerFrom, List.mem_append] at h
      rcases h with h | h
      · rw [lowerHere] at h
        split at h
        · -- Either small sigma is small.
          have hd : d = finalSigma ∨ d = smallSigma := by
            obtain rfl := List.mem_singleton.mp h
            split
            · exact Or.inl rfl
            · exact Or.inr rfl
          rcases hd with rfl | rfl
          · exact ⟨by decide, by decide +kernel⟩
          · exact ⟨by decide, by decide +kernel⟩
        · exact small_of_mem_lowerChar h
      · exact ih _ h
  exact hfrom false text h

/-- ASCII is lowered letter by letter. -/
theorem lower_of_ascii {text : List Char} (hascii : ∀ c ∈ text, c.toNat < 128) :
    lower text = text.map Char.toLower := by
  have hfrom : ∀ (afterCased : Bool) (text : List Char), (∀ c ∈ text, c.toNat < 128) →
      lowerFrom afterCased text = text.map Char.toLower := by
    intro afterCased text
    induction text generalizing afterCased with
    | nil => intro _; rfl
    | cons c rest ih =>
      intro h
      rw [List.forall_mem_cons] at h
      have hne : c ≠ capitalSigma := by
        rintro rfl
        exact absurd h.1 (by decide)
      rw [lowerFrom, lowerHere, if_neg hne, lowerChar, if_pos h.1, ih _ h.2]
      rfl
  exact hfrom false text hascii

/-- The lower case of an ASCII text is ASCII. -/
theorem ascii_of_mem_lower {text : List Char} (hascii : ∀ c ∈ text, c.toNat < 128) :
    ∀ d ∈ lower text, d.toNat < 128 := by
  intro d hd
  rw [lower_of_ascii hascii] at hd
  obtain ⟨c, hc, rfl⟩ := List.mem_map.mp hd
  exact (lower_ascii (hascii c hc)).1

/-- A run in the lower case of an ASCII text is the run in the text, in lower case. -/
theorem takeWhile_map_toLower {p q : Char → Bool} (h : ∀ c, c.toNat < 128 → p c.toLower = q c)
    {text : List Char} (hascii : ∀ c ∈ text, c.toNat < 128) :
    (text.map Char.toLower).takeWhile p = (text.takeWhile q).map Char.toLower := by
  induction text with
  | nil => rfl
  | cons c rest ih =>
    rw [List.forall_mem_cons] at hascii
    rw [List.map_cons, List.takeWhile_cons, List.takeWhile_cons, h c hascii.1, ih hascii.2]
    split <;> rfl

end Tabletop.Text
