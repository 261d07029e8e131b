/-
  What the expansion of aliases leaves of a text.

  Every character of an expanded text is one of the text, of a meaning, or the space that stands for
  blanks.  So an expanded text is in lower case for good, and it is ASCII if the text was.
-/
import Tabletop.Alias
import Tabletop.Proofs.Text.Lower

namespace Tabletop

open Text

namespace Alias

/-- What holds of the characters of a text and of a meaning holds of the text expanded. -/
theorem forall_mem_expandFrom {P : Char → Prop} {entry : Alias}
    (hmeaning : ∀ c ∈ entry.meaning, P c) (inWord : Bool) (text : List Char) :
    (∀ c ∈ text, P c) → ∀ c ∈ entry.expandFrom inWord text, P c := by
  fun_induction expandFrom entry inWord text with
  | case1 => exact fun h => h
  | case2 inWord c text hfirst rest hrest ih =>
    intro h
    rw [List.forall_mem_append]
    refine ⟨hmeaning, ih fun d hd => h d ?_⟩
    exact List.mem_cons_of_mem c ((suffix_of_rest? hrest).subset hd)
  | case3 inWord c text hfirst hrest ih =>
    intro h
    rw [List.forall_mem_cons] at h ⊢
    exact ⟨h.1, ih h.2⟩
  | case4 inWord c text hfirst ih =>
    intro h
    rw [List.forall_mem_cons] at h ⊢
    exact ⟨h.1, ih h.2⟩

end Alias

/-! ## All aliases -/

/-- A text with all aliases expanded, one after the other. -/
def expandAll (text : List Char) : List Char :=
  aliases.foldl (fun text entry => entry.expandFrom false text) text

theorem withoutAliases_eq (expression : String) :
    withoutAliases expression =
      String.ofList (squeeze (expandAll (lower expression.toList))) := rfl

/-- What holds of the letters of the meanings and of those of a text holds of all letters once its
    aliases are expanded. -/
theorem forall_mem_expandAll {P : Char → Prop} (hmeaning : ∀ c ∈ "2d0khl1".toList, P c)
    {text : List Char} (h : ∀ c ∈ text, P c) : ∀ c ∈ expandAll text, P c := by
  have hmeanings : ∀ entry ∈ aliases, ∀ c ∈ entry.meaning, c ∈ "2d0khl1".toList := by
    simp [aliases]
  have hfold : ∀ (entries : List Alias) (text : List Char), (∀ entry ∈ entries, entry ∈ aliases) →
      (∀ c ∈ text, P c) →
        ∀ c ∈ entries.foldl (fun text entry => entry.expandFrom false text) text, P c := by
    intro entries
    induction entries with
    | nil => exact fun text _ h => h
    | cons entry entries ih =>
      intro text hentries h
      rw [List.forall_mem_cons] at hentries
      refine ih _ hentries.2 (Alias.forall_mem_expandFrom (fun c hc => ?_) false text h)
      exact hmeaning c (hmeanings entry hentries.1 c hc)
  exact hfold aliases text (fun _ h => h) h

/-- An expanded text is in lower case for good. -/
theorem small_of_mem_expandAll {text : List Char} : ∀ c ∈ expandAll (lower text), Small c := by
  refine forall_mem_expandAll (fun c hc => ?_) fun c hc => small_of_mem_lower hc
  refine small_of_unmapped (unmapped_of_ascii ?_ ?_)
  · revert c
    simp
  · revert c
    simp

/-- Blanks are squeezed into spaces, and no other character is added. -/
theorem mem_squeezeFrom {gap : Bool} {text : List Char} {c : Char} (h : c ∈ squeezeFrom gap text) :
    c = ' ' ∨ c ∈ text := by
  induction text generalizing gap with
  | nil => cases h
  | cons d rest ih =>
    rw [squeezeFrom] at h
    split at h
    · exact (ih h).imp_right (List.mem_cons_of_mem d)
    · split at h
      · rcases List.mem_cons.mp h with rfl | h
        · exact Or.inl rfl
        · rcases List.mem_cons.mp h with rfl | h
          · exact Or.inr List.mem_cons_self
          · exact (ih h).imp_right (List.mem_cons_of_mem d)
      · rcases List.mem_cons.mp h with rfl | h
        · exact Or.inr List.mem_cons_self
        · exact (ih h).imp_right (List.mem_cons_of_mem d)

theorem mem_squeeze {text : List Char} {c : Char} (h : c ∈ squeeze text) : c = ' ' ∨ c ∈ text :=
  (mem_squeezeFrom h).imp_right fun hc => (List.dropWhile_suffix _).subset hc

/-- An ASCII expression is ASCII without its aliases. -/
theorem ascii_of_mem_withoutAliases {expression : String}
    (h : ∀ c ∈ expression.toList, c.toNat < 128) :
    ∀ c ∈ (withoutAliases expression).toList, c.toNat < 128 := by
  rw [withoutAliases_eq, String.toList_ofList]
  intro c hc
  rcases mem_squeeze hc with rfl | hc
  · decide
  · exact forall_mem_expandAll (P := fun c => c.toNat < 128) (by simp)
      (ascii_of_mem_lower h) c hc

theorem small_space : Small ' ' := ⟨by decide, by decide⟩

/-- A text without aliases has no letter left to lower. -/
theorem small_of_mem_withoutAliases {expression : String} :
    ∀ c ∈ (withoutAliases expression).toList, Small c := by
  rw [withoutAliases_eq, String.toList_ofList]
  intro c hc
  rcases mem_squeeze hc with rfl | hc
  · exact small_space
  · exact small_of_mem_expandAll c hc

/-! ## Marks of variables -/

theorem isWordChar_of_isNameChar {c : Char} (h : isNameChar c = true) : isWordChar c = true :=
  forall_ascii (P := fun c => isNameChar c = true → isWordChar c = true) (by decide)
    (toNat_lt_of_isNameChar h) h

/-- A mark that does not stand in front stands behind. -/
theorem mark_suffix_of_append {front text more : List Char} (hfront : '@' ∉ front)
    (h : '@' :: more <:+ front ++ text) : '@' :: more <:+ text := by
  induction front with
  | nil => exact h
  | cons c front ih =>
    rw [List.mem_cons, not_or] at hfront
    rcases List.suffix_cons_iff.mp h with heq | h
    · exact absurd (List.cons.inj heq).1 hfront.1
    · exact ih hfront.2 h

namespace Alias

/-- What of a word was begun goes on, for no alias begins inside of it. -/
theorem takeWhile_expandFrom {p : Char → Bool} (hp : ∀ c, p c = true → isWordChar c = true)
    (entry : Alias) (text : List Char) :
    (entry.expandFrom true text).takeWhile p = text.takeWhile p := by
  induction text with
  | nil => rw [expandFrom]
  | cons c text ih =>
    rw [expandFrom, if_neg (by simp)]
    cases hc : p c with
    | true =>
      rw [hp c hc, Bool.true_or, List.takeWhile_cons_of_pos hc, List.takeWhile_cons_of_pos hc, ih]
    | false =>
      rw [List.takeWhile_cons_of_neg (by simp [hc]), List.takeWhile_cons_of_neg (by simp [hc])]

/-- The mark of a variable comes from the text, with its name. -/
theorem mark_of_expandFrom {entry : Alias} (hfirst : entry.first ≠ '@')
    (hmeaning : '@' ∉ entry.meaning) (inWord : Bool) (text : List Char) {more : List Char} :
    '@' :: more <:+ entry.expandFrom inWord text →
      ∃ later, '@' :: later <:+ text ∧ more.takeWhile isNameChar = later.takeWhile isNameChar := by
  fun_induction expandFrom entry inWord text with
  | case1 => simp
  | case2 inWord c text hc rest hrest ih =>
    intro h
    obtain ⟨later, hlater, hname⟩ := ih (mark_suffix_of_append hmeaning h)
    exact ⟨later, (hlater.trans (suffix_of_rest? hrest)).trans (List.suffix_cons c text), hname⟩
  | case3 inWord c text hc hrest ih =>
    intro h
    rcases List.suffix_cons_iff.mp h with heq | h
    · exact absurd ((List.cons.inj heq).1.trans hc.1).symm hfirst
    · obtain ⟨later, hlater, hname⟩ := ih h
      exact ⟨later, hlater.trans (List.suffix_cons c text), hname⟩
  | case4 inWord c text hc ih =>
    intro h
    rcases List.suffix_cons_iff.mp h with heq | h
    · obtain ⟨rfl, rfl⟩ := List.cons.inj heq
      exact ⟨text, List.suffix_refl _,
        takeWhile_expandFrom (fun _ => isWordChar_of_isNameChar) entry text⟩
    · obtain ⟨later, hlater, hname⟩ := ih h
      exact ⟨later, hlater.trans (List.suffix_cons c text), hname⟩

end Alias

/-- Aliases bring no variable and change no name. -/
theorem mark_of_expandAll {text more : List Char} (h : '@' :: more <:+ expandAll text) :
    ∃ later, '@' :: later <:+ text ∧ more.takeWhile isNameChar = later.takeWhile isNameChar := by
  have hentry : ∀ entry ∈ aliases, entry.first ≠ '@' ∧ '@' ∉ entry.meaning := by
    simp [aliases]
  have hfold : ∀ (entries : List Alias) (text : List Char), (∀ entry ∈ entries, entry ∈ aliases) →
      '@' :: more <:+ entries.foldl (fun text entry => entry.expandFrom false text) text →
        ∃ later, '@' :: later <:+ text ∧
          more.takeWhile isNameChar = later.takeWhile isNameChar := by
    intro entries
    induction entries with
    | nil => exact fun text _ h => ⟨more, h, rfl⟩
    | cons entry entries ih =>
      intro text hentries h
      rw [List.forall_mem_cons] at hentries
      obtain ⟨later, hlater, hname⟩ := ih _ hentries.2 h
      obtain ⟨hfirst, hmeaning⟩ := hentry entry hentries.1
      obtain ⟨later', hlater', hname'⟩ := entry.mark_of_expandFrom hfirst hmeaning false text hlater
      exact ⟨later', hlater', hname.trans hname'⟩
  exact hfold aliases text (fun _ h => h) h

end Tabletop
