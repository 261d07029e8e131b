/-
  Numerals made of ASCII digits: such a text is read as the number that its digits denote, and what
  is written of a number is made of digits and a sign.  So what is written of a number that can be
  written is read as that number.
-/
import Tabletop.Numeral

namespace Tabletop.Numeral

open Text

/-- The digits are ten code points in a row. -/
theorem toNat_of_isDigit {c : Char} (h : isDigit c = true) : 48 ≤ c.toNat ∧ c.toNat ≤ 57 := by
  simp only [isDigit, Bool.and_eq_true, decide_eq_true_eq] at h
  exact ⟨h.1, h.2⟩

theorem isMargin_of_isDigit {c : Char} (h : isDigit c = true) : isMargin c = false := by
  have := toNat_of_isDigit h
  simp [isMargin, isBlank]
  omega

theorem decimalValue?_of_isDigit {c : Char} (h : isDigit c = true) :
    decimalValue? c = some (c.toNat - '0'.toNat) := by
  have := toNat_of_isDigit h
  rw [decimalValue?, if_pos (by omega), if_pos h]
  rfl

/-- Digits read one after the other make the number that they denote. -/
theorem readDigits_of_digits {cs : List Char} (h : ∀ c ∈ cs, isDigit c = true) (value : Nat) :
    readDigits value cs = some (Nat.ofDigitChars 10 cs value) := by
  induction cs generalizing value with
  | nil => simp [readDigits]
  | cons c cs ih =>
    have hc := h c List.mem_cons_self
    have hne : c ≠ '_' := by rintro rfl; exact absurd hc (by decide)
    rw [readDigits, decimalValue?_of_isDigit hc, Nat.ofDigitChars_cons]
    · exact ih (fun d hd => h d (List.mem_cons_of_mem c hd)) _
    · intro _ _ heq
      exact absurd heq hne

/-- A text that begins and ends with no blank is taken as it is. -/
theorem withoutMargins_of_ends {cs : List Char} (hfirst : ∀ c ∈ cs.head?, isMargin c = false)
    (hlast : ∀ c ∈ cs.getLast?, isMargin c = false) : withoutMargins cs = cs := by
  have hdrop : ∀ ds : List Char, (∀ d ∈ ds.head?, isMargin d = false) →
      ds.dropWhile isMargin = ds := by
    intro ds hds
    cases ds with
    | nil => rfl
    | cons d ds => exact List.dropWhile_cons_of_neg (by simp [hds d rfl])
  rw [withoutMargins, hdrop cs hfirst, hdrop cs.reverse (by rwa [List.head?_reverse]),
    List.reverse_reverse]

theorem readNat?_of_digits {cs : List Char} (hne : cs ≠ []) (h : ∀ c ∈ cs, isDigit c = true)
    (hlen : cs.length ≤ digitLimit) : readNat? cs = some (Nat.ofDigitChars 10 cs 0) := by
  obtain ⟨c, cs, rfl⟩ := List.exists_cons_of_ne_nil hne
  have hcount : (c :: cs).countP (· != '_') ≤ digitLimit :=
    Nat.le_trans List.countP_le_length hlen
  rw [List.forall_mem_cons] at h
  rw [readNat?, if_pos hcount, decimalValue?_of_isDigit h.1, Nat.ofDigitChars_cons, Nat.mul_zero,
    Nat.zero_add]
  exact readDigits_of_digits h.2 _

/-- A text of digits, not too long, is read as the number that they denote. -/
theorem read?_of_digits {cs : List Char} (hne : cs ≠ []) (h : ∀ c ∈ cs, isDigit c = true)
    (hlen : cs.length ≤ digitLimit) : read? cs = some (Nat.ofDigitChars 10 cs 0 : Nat) := by
  have hmargins : withoutMargins cs = cs := withoutMargins_of_ends
    (fun c hc => isMargin_of_isDigit (h c (List.mem_of_head? hc)))
    (fun c hc => isMargin_of_isDigit (h c (List.mem_of_getLast? hc)))
  rw [read?, hmargins]
  split
  · exact absurd (h _ List.mem_cons_self) (by decide)
  · exact absurd (h _ List.mem_cons_self) (by decide)
  · rw [readNat?_of_digits hne h hlen]
    rfl

/-- With a minus sign before it, it is read as the opposite number. -/
theorem read?_of_minus {cs : List Char} (hne : cs ≠ []) (h : ∀ c ∈ cs, isDigit c = true)
    (hlen : cs.length ≤ digitLimit) :
    read? ('-' :: cs) = some (-(Nat.ofDigitChars 10 cs 0 : Nat) : Int) := by
  have hmargins : withoutMargins ('-' :: cs) = '-' :: cs := by
    refine withoutMargins_of_ends (fun c hc => ?_) fun c hc => isMargin_of_isDigit ?_
    · cases hc
      decide
    · rw [List.getLast?_cons_of_ne_nil hne] at hc
      exact h c (List.mem_of_getLast? hc)
  rw [read?, hmargins]
  show (readNat? cs).map (fun n => -(n : Int)) = _
  rw [readNat?_of_digits hne h hlen]
  rfl

/-! ## Characters -/

theorem isDigit_of_mem_toDigits {n : Nat} {c : Char} (h : c ∈ Nat.toDigits 10 n) :
    isDigit c = true := by
  have hdigit := Nat.isDigit_of_mem_toDigits (by decide) (by decide) h
  simpa [isDigit, Char.isDigit, Char.le_def] using hdigit

/-- A numeral is written with digits and a minus sign. -/
theorem eq_or_isDigit_of_mem_decimal {n : Int} {c : Char} (h : c ∈ (decimal n).toList) :
    c = '-' ∨ isDigit c = true := by
  cases n with
  | ofNat n => exact Or.inr (isDigit_of_mem_toDigits (String.toList_ofList ▸ h))
  | negSucc n =>
    rw [decimal, String.toList_append, List.mem_append] at h
    refine h.imp List.mem_singleton.mp fun hdigit => ?_
    exact isDigit_of_mem_toDigits (String.toList_ofList ▸ hdigit)

/-! ## Short numerals -/

/-- An integer of fewer digits than the limit can be written. -/
theorem fits_of_lt {n : Int} {digits : Nat} (h : n.natAbs < Nat.pow 10 digits)
    (hdigits : digits ≤ digitLimit) : fits n = true := by
  have hpow : ∀ limit, digits ≤ limit → Nat.pow 10 digits ≤ Nat.pow 10 limit :=
    fun limit hlimit => Nat.pow_le_pow_right (by decide) hlimit
  rw [fits, decide_eq_true_eq]
  exact Nat.lt_of_lt_of_le h (hpow digitLimit hdigits)

/-- What is written of an integer is read as that integer. -/
theorem read?_decimal {n : Int} (h : fits n = true) : read? (decimal n).toList = some n := by
  have hlimit : ∀ limit, 0 < limit → ∀ m, m < Nat.pow 10 limit →
      (Nat.toDigits 10 m).length ≤ limit :=
    fun limit hpositive m hm => (Nat.length_toDigits_le_iff (by decide) hpositive).mpr hm
  have hdigits : ∀ m, ∀ c ∈ Nat.toDigits 10 m, isDigit c = true := fun m c hc =>
    isDigit_of_mem_toDigits hc
  rw [fits, decide_eq_true_eq] at h
  have hlength := hlimit digitLimit (by decide) n.natAbs h
  cases n with
  | ofNat m =>
    rw [decimal, decimalNat, String.toList_ofList,
      read?_of_digits Nat.toDigits_ne_nil (hdigits m) hlength, Nat.ofDigitChars_ten_toDigits]
    rfl
  | negSucc m =>
    have hread := read?_of_minus Nat.toDigits_ne_nil (hdigits (m + 1)) hlength
    rw [Nat.ofDigitChars_ten_toDigits] at hread
    have htext : ("-" ++ decimalNat (m + 1)).toList = '-' :: Nat.toDigits 10 (m + 1) := by
      simp [decimalNat]
    rw [decimal, htext]
    exact hread

/-- Some integer is too long to be written. -/
theorem exists_not_fits : ∃ n : Int, fits n = false := by
  have hany : ∀ bound : Nat, ∃ n : Int, decide (n.natAbs < bound) = false :=
    fun bound => ⟨bound, decide_eq_false (Nat.lt_irrefl bound)⟩
  exact hany _

end Tabletop.Numeral
