/-
  Upper case of names: the characters that names are written with have one character each for upper
  case, and it is its own upper case.

  Names are ASCII, and what holds of all ASCII characters is found by looking at each of them.
-/
import Tabletop.Text.Case
import Tabletop.Text.Word

namespace Tabletop.Text

/-- What holds of the first 128 characters holds of ASCII. -/
theorem forall_ascii {P : Char → Prop} (h : ∀ n < 128, P (Char.ofNat n)) {c : Char}
    (hc : c.toNat < 128) : P c := by
  have hchar := h c.toNat hc
  rwa [Char.ofNat_toNat] at hchar

/-- Names are written in ASCII. -/
theorem toNat_lt_of_isNameChar {c : Char} (h : isNameChar c = true) : c.toNat < 128 := by
  simp only [isNameChar, isDigit, Bool.or_eq_true, Bool.and_eq_true, decide_eq_true_eq,
    beq_iff_eq] at h
  rcases h with (⟨-, hz⟩ | ⟨-, h9⟩) | rfl
  · exact Nat.lt_of_le_of_lt hz (by decide)
  · exact Nat.lt_of_le_of_lt h9 (by decide)
  · decide

/-- An ASCII character has one character for upper case, which stays as it is. -/
theorem upperChar_of_ascii {c : Char} (h : c.toNat < 128) :
    ∃ d : Char, upperChar c = [d] ∧ upperChar d = [d] := by
  obtain ⟨hlt, hupper⟩ : c.toUpper.toNat < 128 ∧ c.toUpper.toUpper = c.toUpper :=
    forall_ascii (P := fun c => c.toUpper.toNat < 128 ∧ c.toUpper.toUpper = c.toUpper) (by decide) h
  refine ⟨c.toUpper, by rw [upperChar, if_pos h], ?_⟩
  rw [upperChar, if_pos hlt, hupper]

/-- Upper case does not tell whether an ASCII text was in lower case before. -/
theorem upper_map_toLower {cs : List Char} (h : ∀ c ∈ cs, c.toNat < 128) :
    upper (cs.map Char.toLower) = upper cs := by
  have hchar : ∀ c ∈ cs, upperChar c.toLower = upperChar c := fun c hc =>
    forall_ascii (P := fun c => upperChar c.toLower = upperChar c) (by decide) (h c hc)
  rw [upper, upper, List.flatMap_map, List.flatMap_def, List.flatMap_def,
    List.map_congr_left hchar]

/-- An ASCII text in upper case stays as it is. -/
theorem upper_upper {cs : List Char} (h : ∀ c ∈ cs, c.toNat < 128) :
    upper (upper cs) = upper cs := by
  induction cs with
  | nil => rfl
  | cons c cs ih =>
    obtain ⟨d, hc, hd⟩ := upperChar_of_ascii (h c List.mem_cons_self)
    have hrest := ih fun e he => h e (List.mem_cons_of_mem c he)
    rw [upper, upper, List.flatMap_cons, hc, List.singleton_append, List.flatMap_cons, hd,
      List.singleton_append]
    exact congrArg (d :: ·) hrest

end Tabletop.Text
