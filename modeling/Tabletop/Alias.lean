/-
  Aliases: `adv` and `dis` for two twenty-sided dice of which the better or the worse counts.

  An alias is a whole word: no word character and no `@` stands before it, no word character behind
  it.  The forms with a die, `adv d20` and `dis d20`, are looked for first, so that the bare words
  do not take their beginning.  The expansion works on the lowered text and leaves one space for
  each run of blanks.
-/
import Tabletop.Text.Case
import Tabletop.Text.Blank
import Tabletop.Text.Word

namespace Tabletop

open Text

/-- What remains of a text after a word that it begins with. -/
def after? : List Char → List Char → Option (List Char)
  | [], text => some text
  | _ :: _, [] => none
  | w :: word, c :: text => if w = c then after? word text else none

/-- A word that is found stands in front. -/
theorem eq_append_of_after? {word text rest : List Char} (h : after? word text = some rest) :
    text = word ++ rest := by
  induction word generalizing text with
  | nil =>
    cases h
    rfl
  | cons w word ih =>
    cases text with
    | nil => cases h
    | cons c text =>
      rw [after?] at h
      split at h
      · next hw => rw [ih h, hw, List.cons_append]
      · cases h

/-- A word that stands for dice: `word` begins it, and with `withDie` blanks and `d20` follow. -/
structure Alias where
  first : Char
  others : List Char
  withDie : Bool
  meaning : List Char

namespace Alias

/-- Whether a word may end before this text. -/
def atBoundary : List Char → Bool
  | [] => true
  | c :: _ => !isWordChar c

/-- What remains after blanks and `d20`, of a text that goes on with them. -/
def afterDie? : List Char → Option (List Char)
  | [] => none
  | c :: rest => if isBlank c then after? "d20".toList (rest.dropWhile isBlank) else none

/-- What remains after an alias that begins with the character before this text. -/
def rest? (entry : Alias) (text : List Char) : Option (List Char) :=
  match after? entry.others text with
  | none => none
  | some rest =>
    match if entry.withDie then afterDie? rest else some rest with
    | none => none
    | some rest => if atBoundary rest then some rest else none

/-- A die is found behind a blank and any further ones. -/
theorem of_afterDie?_eq_some {text rest : List Char} (h : afterDie? text = some rest) :
    ∃ c more, text = c :: more ∧ isBlank c = true ∧
      more.dropWhile isBlank = "d20".toList ++ rest := by
  cases text with
  | nil => cases h
  | cons c more =>
    rw [afterDie?] at h
    split at h
    · next hblank => exact ⟨c, more, rfl, hblank, eq_append_of_after? h⟩
    · cases h

/-- An alias is found with its word in front and its die behind that, if it has one, and ends where
    a word may end. -/
theorem of_rest?_eq_some {entry : Alias} {text rest : List Char}
    (h : entry.rest? text = some rest) :
    ∃ more, text = entry.others ++ more ∧
      (if entry.withDie then afterDie? more else some more) = some rest ∧
        atBoundary rest = true := by
  rw [rest?] at h
  split at h
  · cases h
  · next more hmore =>
    split at h
    · cases h
    · next found hfound =>
      split at h
      · next hboundary =>
        cases h
        exact ⟨more, eq_append_of_after? hmore, hfound, hboundary⟩
      · cases h

/-- What is left behind a die is an end of the text. -/
theorem suffix_of_afterDie? {text rest : List Char} (h : afterDie? text = some rest) :
    rest <:+ text := by
  obtain ⟨c, more, rfl, -, hdie⟩ := of_afterDie?_eq_some h
  have hrest : rest <:+ more.dropWhile isBlank := ⟨_, hdie.symm⟩
  exact (hrest.trans (List.dropWhile_suffix _)).trans (List.suffix_cons c more)

/-- What an alias leaves is an end of the text. -/
theorem suffix_of_rest? {entry : Alias} {text rest : List Char} (h : entry.rest? text = some rest) :
    rest <:+ text := by
  obtain ⟨more, rfl, hfound, -⟩ := of_rest?_eq_some h
  have hrest : rest <:+ more := by
    split at hfound
    · exact suffix_of_afterDie? hfound
    · cases hfound
      exact List.suffix_refl _
  exact hrest.trans (List.suffix_append _ _)

/-- A text with the alias replaced wherever it stands; `inWord` tells that the character before the
    text keeps an alias from beginning here. -/
def expandFrom (entry : Alias) (inWord : Bool) : List Char → List Char
  | [] => []
  | c :: text =>
    if c = entry.first ∧ !inWord then
      match _h : entry.rest? text with
      | some rest => entry.meaning ++ expandFrom entry true rest
      | none => c :: expandFrom entry true text
    else c :: expandFrom entry (isWordChar c || c == '@') text
termination_by text => text.length
decreasing_by
  all_goals simp only [List.length_cons]
  · have := (suffix_of_rest? _h).length_le
    omega
  · omega
  · omega

end Alias

/-- The aliases, in the order in which they are looked for. -/
def aliases : List Alias := [
  ⟨'a', "dv".toList, true, "2d20kh1".toList⟩,
  ⟨'d', "is".toList, true, "2d20kl1".toList⟩,
  ⟨'a', "dv".toList, false, "2d20kh1".toList⟩,
  ⟨'d', "is".toList, false, "2d20kl1".toList⟩]

/-- A text in lower case with its aliases expanded and one space for each run of blanks. -/
def withoutAliases (expression : String) : String :=
  String.ofList <| squeeze <|
    aliases.foldl (fun text entry => entry.expandFrom false text) (lower expression.toList)

example : withoutAliases "Adv  d20 + @adv" = "2d20kh1 + @adv" := by decide +kernel
example : withoutAliases "radv dis" = "radv 2d20kl1" := by decide +kernel

end Tabletop
