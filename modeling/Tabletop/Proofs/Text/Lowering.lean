/-
  What lowering makes of a single character.

  Lower case keeps ASCII apart from the rest, but for two letters: the sign for kelvin is lowered to
  an ASCII letter, and the capital i with a dot to an ASCII letter and a dot above it.  The second
  is also the only one whose lower case is not one character.  And blanks stay blanks.  So a text
  and its lower case can be walked through side by side, with four cases to look at (`Lowering`).
-/
import Tabletop.Proofs.Text.Lower
import Tabletop.Text.Blank

namespace Tabletop.Text

/-- The sign for kelvin. -/
def kelvinSign : Char := '\u212a'

/-- The capital i with a dot. -/
def dottedI : Char := '\u0130'

/-- The dot above, which the lower case of the capital i with a dot ends in. -/
def dotAbove : Char := '\u0307'

/-- What the lower case of a character can be. -/
inductive Lowering (c : Char) : List Char → Prop where
  | ascii (low : c.toNat < 128) : Lowering c [c.toLower]
  | kelvin (sign : c = kelvinSign) : Lowering c ['k']
  | dotted (letter : c = dottedI) : Lowering c ['i', dotAbove]
  | above {d : Char} (high : 128 ≤ c.toNat) (ne : c ≠ dottedI) (above : 128 ≤ d.toNat)
      (blank : isBlank d = isBlank c) : Lowering c [d]

/-! ## Blanks above ASCII -/

/-- The blanks above ASCII, from the first to the last of each row. -/
def highBlanks : List (Nat × Nat) :=
  [(0x85, 0x85), (0xA0, 0xA0), (0x1680, 0x1680), (0x2000, 0x200A), (0x2028, 0x2029),
    (0x202F, 0x202F), (0x205F, 0x205F), (0x3000, 0x3000)]

theorem isBlank_of_high {c : Char} (h : 128 ≤ c.toNat) :
    isBlank c = true ↔ ∃ row ∈ highBlanks, row.1 ≤ c.toNat ∧ c.toNat ≤ row.2 := by
  simp only [isBlank, highBlanks, Bool.or_eq_true, Bool.and_eq_true, decide_eq_true_eq, beq_iff_eq,
    List.mem_cons, List.not_mem_nil, or_false, exists_eq_or_imp, exists_eq_left]
  omega

/-! ## What the tables map -/

namespace CaseRun

/-- The run is that of the sign for kelvin alone. -/
def isKelvin (run : CaseRun) : Bool :=
  Nat.beq run.first 0x212A && Nat.beq run.last 0x212A && decide (run.shift = -8383)

/-- The run maps to characters above ASCII. -/
def staysAbove (run : CaseRun) : Bool :=
  Nat.ble 128 run.low &&
    (Nat.blt run.high 0xD800 || Nat.blt 0xDFFF run.low && Nat.blt run.high 0x110000)

/-- The run maps no blank, and maps nothing to a blank. -/
def sparesBlanks (run : CaseRun) : Bool :=
  highBlanks.all fun row => (Nat.blt run.high row.1 || Nat.blt row.2 run.low) &&
    (Nat.blt run.last row.1 || Nat.blt row.2 run.first)

end CaseRun

/-- Of the table of runs, one leads back to ASCII. -/
theorem staysAbove_lowerRuns :
    lowerRuns.all (fun run => run.isKelvin || run.staysAbove && run.sparesBlanks) = true := by
  decide +kernel

/-- A covered code point lies between the ends of its run, and so does what it is mapped to. -/
theorem CaseRun.bounds {run : CaseRun} {n : Nat} (h : run.covers n = true)
    (hlow : 128 ≤ run.low) :
    run.first ≤ n ∧ n ≤ run.last ∧ run.low ≤ (n + run.shift).toNat ∧
      (n + run.shift).toNat ≤ run.high := by
  simp only [CaseRun.covers, Bool.and_eq_true, decide_eq_true_eq] at h
  rw [CaseRun.low] at hlow ⊢
  rw [CaseRun.high]
  omega

/-- What a run maps a character to, if it does not lead back to ASCII. -/
theorem lowering_of_covers {run : CaseRun} {c : Char} (hstays : run.staysAbove = true)
    (hspares : run.sparesBlanks = true) (hcovers : run.covers c.toNat = true)
    (hhigh : 128 ≤ c.toNat) (hne : c ≠ dottedI) :
    Lowering c [Char.ofNat (c.toNat + run.shift).toNat] := by
  simp only [CaseRun.staysAbove, Bool.and_eq_true, Bool.or_eq_true, Nat.ble_eq, Nat.blt_eq]
    at hstays
  obtain ⟨hfirst, hlast, hlow, htop⟩ := CaseRun.bounds hcovers hstays.1
  generalize (c.toNat + run.shift).toNat = n at hlow htop
  have hvalid : n.isValidChar := by
    rw [Nat.isValidChar]
    omega
  have hn : (Char.ofNat n).toNat = n := by
    rw [Char.ofNat, dif_pos hvalid]
    rfl
  have habove : 128 ≤ (Char.ofNat n).toNat := by omega
  refine .above hhigh hne habove ?_
  -- Neither of the two is a blank.
  have hrows : ∀ row ∈ highBlanks,
      (n < row.1 ∨ row.2 < n) ∧ (c.toNat < row.1 ∨ row.2 < c.toNat) := by
    intro row hrow
    have hrow := List.all_eq_true.mp hspares row hrow
    simp only [Bool.and_eq_true, Bool.or_eq_true, Nat.blt_eq] at hrow
    omega
  rw [Bool.eq_iff_iff, isBlank_of_high habove, isBlank_of_high hhigh, hn]
  constructor
  · rintro ⟨row, hrow, hbetween⟩
    have := hrows row hrow
    omega
  · rintro ⟨row, hrow, hbetween⟩
    have := hrows row hrow
    omega

theorem lowering_lowerChar (c : Char) : Lowering c (lowerChar c) := by
  rw [lowerChar]
  split
  · next hascii => exact .ascii hascii
  · next hascii =>
    have hhigh : 128 ≤ c.toNat := Nat.le_of_not_lt hascii
    cases hseq : sequence? lowerSequences c with
    | some cs =>
      obtain ⟨codes, hcodes, rfl⟩ := Option.map_eq_some_iff.mp hseq
      obtain ⟨hc, rfl⟩ := mem_sequences hcodes
      exact .dotted (Char.toNat_inj.mp hc)
    | none =>
      have hne : c ≠ dottedI := by
        rintro rfl
        cases hseq
      rw [Option.getD_none, mapByRuns]
      split
      · next run hfind =>
        have hcovers : run.covers c.toNat = true := by simpa using List.find?_some hfind
        have hrun := List.all_eq_true.mp staysAbove_lowerRuns run
          (List.mem_of_find?_eq_some hfind)
        -- One run leads down to ASCII, and it covers the kelvin sign alone.
        rcases Bool.or_eq_true_iff.mp hrun with hkelvin | hstays
        · simp only [CaseRun.isKelvin, Bool.and_eq_true, Nat.beq_eq, decide_eq_true_eq] at hkelvin
          simp only [CaseRun.covers, Bool.and_eq_true, decide_eq_true_eq] at hcovers
          have hc : c.toNat = kelvinSign.toNat := by
            show c.toNat = 0x212A
            omega
          obtain rfl := Char.toNat_inj.mp hc
          rw [hkelvin.2]
          exact .kelvin rfl
        · obtain ⟨hstays, hspares⟩ := Bool.and_eq_true_iff.mp hstays
          exact lowering_of_covers hstays hspares hcovers hhigh hne
      · exact .above hhigh hne hhigh rfl

/-- A capital sigma is above ASCII whichever small one it becomes. -/
theorem lowering_lowerHere (afterCased : Bool) (c : Char) (rest : List Char) :
    Lowering c (lowerHere afterCased c rest) := by
  rw [lowerHere]
  split
  · next hsigma =>
    subst hsigma
    split
    · exact .above (by decide) (by decide) (by decide) (by decide)
    · exact .above (by decide) (by decide) (by decide) (by decide)
  · exact lowering_lowerChar c

/-! ## Texts around a character -/

/-- Lowering leaves the character as it is, and letters on its two sides do not see each other. -/
structure Apart (d : Char) : Prop where
  small : Small d
  ignorable : isCaseIgnorable d = false
  cased : isCased d = false

/-- The mark of a variable is such a character. -/
theorem apart_mark : Apart '@' := ⟨⟨by decide, by decide⟩, by decide, by decide⟩

/-- Whether a word ends is decided before it. -/
theorem startsCased_append {d : Char} (h : Apart d) (left right : List Char) :
    startsCased (left ++ d :: right) = startsCased left := by
  rw [startsCased, startsCased, List.dropWhile_append]
  cases hdrop : left.dropWhile isCaseIgnorable with
  | nil =>
    rw [List.isEmpty_nil, if_pos rfl, List.dropWhile_cons_of_neg (by simp [h.ignorable])]
    exact h.cased
  | cons c rest => rfl

theorem lowerFrom_append {d : Char} (h : Apart d) (left right : List Char) (afterCased : Bool) :
    lowerFrom afterCased (left ++ d :: right) =
      lowerFrom afterCased left ++ d :: lowerFrom false right := by
  induction left generalizing afterCased with
  | nil =>
    show lowerHere afterCased d right ++
      lowerFrom (if isCaseIgnorable d then afterCased else isCased d) right = _
    rw [lowerHere, if_neg h.small.ne_sigma, h.small.lower, h.ignorable, h.cased]
    rfl
  | cons c rest ih =>
    have hhere : lowerHere afterCased c (rest ++ d :: right) = lowerHere afterCased c rest := by
      rw [lowerHere, lowerHere, startsCased_append h]
    rw [List.cons_append, lowerFrom, lowerFrom, ih, hhere, List.append_assoc]

theorem lower_append {d : Char} (h : Apart d) (left right : List Char) :
    lower (left ++ d :: right) = lower left ++ d :: lower right :=
  lowerFrom_append h left right false

/-- Blanks in front end at what is no blank. -/
theorem trimLeft_append {d : Char} (hd : isBlank d = false) (left right : List Char) :
    trimLeft (left ++ d :: right) = trimLeft left ++ d :: right := by
  rw [trimLeft, trimLeft, List.dropWhile_append]
  split
  · next hnil =>
    rw [List.isEmpty_iff.mp hnil, List.dropWhile_cons_of_neg (by simp [hd])]
    rfl
  · rfl

/-- Nothing but the mark of a variable is lowered to one: induction on the text. -/
theorem of_mark_suffix_lowerFrom {text more : List Char} (afterCased : Bool)
    (h : '@' :: more <:+ lowerFrom afterCased text) :
    ∃ left right, text = left ++ '@' :: right ∧ more = lower right := by
  induction text generalizing afterCased with
  | nil => simp [lowerFrom] at h
  | cons c rest ih =>
    -- What follows a character is lowered to no less than what follows its lower case.
    have hlater : ∀ afterCased : Bool, '@' :: more <:+ lowerFrom afterCased rest →
        ∃ left right, c :: rest = left ++ '@' :: right ∧ more = lower right := by
      intro afterCased h
      obtain ⟨left, right, rfl, hmore⟩ := ih afterCased h
      exact ⟨c :: left, right, rfl, hmore⟩
    rw [lowerFrom] at h
    generalize hhere : lowerHere afterCased c rest = here at h
    cases hhere ▸ lowering_lowerHere afterCased c rest with
    | ascii low =>
      rcases List.suffix_cons_iff.mp h with heq | h
      · obtain rfl : c = '@' := by
          have hc := (List.cons.inj heq).1
          exact forall_ascii (P := fun c => '@' = c.toLower → c = '@') (by decide) low hc
        refine ⟨[], rest, rfl, ?_⟩
        rw [(List.cons.inj heq).2, apart_mark.ignorable, apart_mark.cased]
        rfl
      · exact hlater _ h
    | kelvin sign =>
      rcases List.suffix_cons_iff.mp h with heq | h
      · cases heq
      · exact hlater _ h
    | dotted letter =>
      rcases List.suffix_cons_iff.mp h with heq | h
      · cases heq
      rcases List.suffix_cons_iff.mp h with heq | h
      · cases heq
      · exact hlater _ h
    | above high ne above blank =>
      rcases List.suffix_cons_iff.mp h with heq | h
      · rw [← (List.cons.inj heq).1] at above
        exact absurd above (by decide)
      · exact hlater _ h

end Tabletop.Text
