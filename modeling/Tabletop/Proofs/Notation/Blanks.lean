/-
  What a blank does: it ends the name of a variable, and nothing else.

  1. **One mark** — blanks are dropped, and all that is left of them is the mark of the glyph
     behind.  A token looks at a mark only where it carries on a name, so a mark that no name runs
     up to can be set or taken away (`piecesFrom_opensWord`).
  2. **Texts** — a run of blanks put into a text changes at most the one mark behind it.  So it
     changes the tokens just when it is put into a name: behind the mark of a variable with what was
     written of its name, and before a character that would carry the name on.
-/
import Mathlib.Data.List.Nodup
import Mathlib.Data.List.TakeWhile
import Tabletop.Proofs.Notation.Names
import Tabletop.Proofs.Notation.Tiling

namespace Tabletop

open Text

/-! ## One mark -/

/-- A name runs up to the end of the glyphs: from the mark of a variable on, all carry it on. -/
def RunsOn (gs : List Glyph) : Prop :=
  ∃ before mark run, gs = before ++ ⟨'@', mark⟩ :: run ∧ ∀ g ∈ run, g.carriesName = true

/-- Glyphs that run on do so with more in front of them. -/
theorem RunsOn.of_suffix {gs hs : List Glyph} (h : RunsOn gs) (hsuffix : gs <:+ hs) :
    RunsOn hs := by
  obtain ⟨before, mark, run, rfl, hrun⟩ := h
  obtain ⟨front, rfl⟩ := hsuffix
  exact ⟨front ++ before, mark, run, by rw [List.append_assoc], hrun⟩

variable {c : Char} {mark mark' : Bool} {gs rest : List Glyph}

/-- A run of glyphs is as long as before if it does not get to the glyph whose mark is changed, or
    if that one makes no difference to it. -/
theorem length_takeWhile_opensWord {p : Glyph → Bool}
    (h : (∀ g ∈ gs, p g = true) → p ⟨c, mark⟩ = p ⟨c, mark'⟩) :
    ((gs ++ ⟨c, mark⟩ :: rest).takeWhile p).length =
      ((gs ++ ⟨c, mark'⟩ :: rest).takeWhile p).length := by
  induction gs with
  | nil =>
    rw [List.nil_append, List.nil_append, List.takeWhile_cons, List.takeWhile_cons, h (by simp)]
    split <;> rfl
  | cons g gs ih =>
    rw [List.cons_append, List.cons_append, List.takeWhile_cons, List.takeWhile_cons]
    split
    · next hg =>
      rw [List.length_cons, List.length_cons,
        ih fun hall => h (List.forall_mem_cons.mpr ⟨hg, hall⟩)]
    · rfl

/-- A mark behind other glyphs changes no token, unless a name runs on up to it. -/
theorem lexeme?_opensWord {d : Char} {own : Bool} (afterOperand : Bool)
    (h : isNameChar c = true → ¬ RunsOn (⟨d, own⟩ :: gs)) :
    lexeme? afterOperand d (gs ++ ⟨c, mark⟩ :: rest) =
      lexeme? afterOperand d (gs ++ ⟨c, mark'⟩ :: rest) := by
  by_cases hat : d = '@'
  · -- Here alone marks are looked at, and no name runs up to the one that is changed.
    subst hat
    rw [lexeme?_mark, lexeme?_mark, length_takeWhile_opensWord fun hall => ?_]
    have hc : isNameChar c = false :=
      Bool.eq_false_iff.mpr fun hc => h hc ⟨[], own, gs, rfl, hall⟩
    simp [Glyph.carriesName, hc]
  · have hdigits : ((gs ++ ⟨c, mark⟩ :: rest).takeWhile (isDigit ·.char)).length =
        ((gs ++ ⟨c, mark'⟩ :: rest).takeWhile (isDigit ·.char)).length :=
      length_takeWhile_opensWord fun _ => rfl
    have hhead : (gs ++ ⟨c, mark⟩ :: rest).head?.map (·.char) =
        (gs ++ ⟨c, mark'⟩ :: rest).head?.map (·.char) := by
      cases gs <;> rfl
    rw [lexeme?, lexeme?, hdigits, hhead, if_neg hat, if_neg hat]

/-- Further on than a glyph, its mark does not matter. -/
theorem drop_opensWord {extra : Nat} (h : gs.length < extra) :
    (gs ++ ⟨c, mark⟩ :: rest).drop extra = (gs ++ ⟨c, mark'⟩ :: rest).drop extra := by
  obtain ⟨more, rfl⟩ := Nat.exists_eq_add_of_lt h
  rw [Nat.add_assoc, List.drop_length_add_append, List.drop_length_add_append,
    List.drop_succ_cons, List.drop_succ_cons]

/-- What is cut does not hang on a mark that no name runs up to: induction on the glyphs before
    it. -/
theorem piecesFrom_opensWord (afterOperand : Bool) (position : Nat)
    (h : isNameChar c = true → ¬ RunsOn gs) :
    piecesFrom afterOperand position (gs ++ ⟨c, mark⟩ :: rest) =
      piecesFrom afterOperand position (gs ++ ⟨c, mark'⟩ :: rest) := by
  induction hlength : gs.length using Nat.strongRecOn
    generalizing gs afterOperand position with
  | _ n ih =>
    cases gs with
    | nil => rw [List.nil_append, List.nil_append, piecesFrom, piecesFrom]
    | cons g gs =>
      rw [List.length_cons] at hlength
      have hlex : lexeme? afterOperand g.char (gs ++ ⟨c, mark'⟩ :: rest) =
          lexeme? afterOperand g.char (gs ++ ⟨c, mark⟩ :: rest) := lexeme?_opensWord afterOperand h
      rw [List.cons_append, List.cons_append, piecesFrom, piecesFrom, hlex]
      cases lexeme? afterOperand g.char (gs ++ ⟨c, mark⟩ :: rest) with
      | none =>
        have hlater : isNameChar c = true → ¬ RunsOn gs := fun hc hrun =>
          h hc (hrun.of_suffix (List.suffix_cons g gs))
        dsimp only
        rw [ih gs.length (by omega) _ _ hlater rfl]
      | some found =>
        obtain ⟨kind, extra⟩ := found
        have hchars : ((gs ++ ⟨c, mark⟩ :: rest).take extra).map (·.char) =
            ((gs ++ ⟨c, mark'⟩ :: rest).take extra).map (·.char) := by
          rw [List.map_take, List.map_take, List.map_append, List.map_append, List.map_cons,
            List.map_cons]
        have hlater : isNameChar c = true → ¬ RunsOn (gs.drop extra) := fun hc hrun =>
          h hc (hrun.of_suffix ((List.drop_suffix extra gs).trans (List.suffix_cons g gs)))
        have hshorter : (gs.drop extra).length < n := by
          rw [List.length_drop]
          omega
        dsimp only
        rw [hchars]
        -- The token takes the glyph with the mark, or that is still ahead.
        rcases Nat.lt_or_ge gs.length extra with hlt | hle
        · have hrest : (gs ++ ⟨c, mark⟩ :: rest).drop extra =
              (gs ++ ⟨c, mark'⟩ :: rest).drop extra := drop_opensWord hlt
          rw [hrest]
        · rw [List.drop_append_of_le_length hle, List.drop_append_of_le_length hle,
            ih _ hshorter _ _ hlater rfl]

/-! ## Blanks in front of a text -/

/-- Whether a blank stands right behind a text, `before` telling whether one stands before it. -/
def endsBlank (before : Bool) : List Char → Bool
  | [] => before
  | c :: rest => endsBlank (isBlank c) rest

/-- The glyphs of two texts in a row, the second one marked as the first one ends. -/
theorem glyphsFrom_append_text (before : Bool) (left right : List Char) :
    glyphsFrom before (left ++ right) =
      glyphsFrom before left ++ glyphsFrom (endsBlank before left) right := by
  induction left generalizing before with
  | nil => rfl
  | cons c left ih =>
    rw [endsBlank, List.cons_append]
    cases hc : isBlank c with
    | true => rw [glyphsFrom_of_blank hc, glyphsFrom_of_blank hc, ih]
    | false =>
      rw [glyphsFrom_of_not_blank hc, glyphsFrom_of_not_blank hc, ih, List.cons_append]

/-- How the first of two texts ends is what stands before the second one. -/
theorem endsBlank_append (before : Bool) (left right : List Char) :
    endsBlank before (left ++ right) = endsBlank (endsBlank before left) right := by
  induction left generalizing before with
  | nil => rfl
  | cons c left ih => exact ih (isBlank c)

/-- Blanks behind a text are dropped. -/
theorem glyphsFrom_blanks {blanks : List Char} (h : ∀ c ∈ blanks, isBlank c = true)
    (before : Bool) : glyphsFrom before blanks = [] := by
  induction blanks generalizing before with
  | nil => rfl
  | cons c blanks ih =>
    rw [List.forall_mem_cons] at h
    rw [glyphsFrom_of_blank h.1, ih h.2]

theorem endsBlank_blanks {blanks : List Char} (h : ∀ c ∈ blanks, isBlank c = true)
    (hne : blanks ≠ []) (before : Bool) : endsBlank before blanks = true := by
  induction blanks generalizing before with
  | nil => exact absurd rfl hne
  | cons c blanks ih =>
    rw [List.forall_mem_cons] at h
    rw [endsBlank, h.1]
    cases blanks with
    | nil => rfl
    | cons d blanks => exact ih h.2 (List.cons_ne_nil d blanks) true

/-- The characters of the glyphs are those of the text without its blanks. -/
theorem map_char_glyphsFrom (before : Bool) (text : List Char) :
    (glyphsFrom before text).map (·.char) = withoutBlanks text := by
  rw [← zip_wordMarks, Glyph.map_char_zip]

/-- A name that runs up to the end of the glyphs of a text ends the text, if no blank does. -/
theorem name_of_runsOn {before : Bool} {text : List Char} (h : RunsOn (glyphsFrom before text))
    (hlast : endsBlank before text = false) :
    ∃ front name, text = front ++ '@' :: name ∧ ∀ c ∈ name, isNameChar c = true := by
  obtain ⟨earlier, mark, run, hglyphs, hrun⟩ := h
  obtain ⟨mark', more, hmore, hdrop⟩ := drop_glyphsFrom earlier.length before text
  rw [hglyphs, List.drop_left] at hdrop
  obtain ⟨later, hlater, rfl⟩ := of_glyphsFrom_eq_cons hdrop.symm
  obtain ⟨front, rfl⟩ := hlater.trans hmore
  -- All that is written behind the mark is the name, and blanks behind it.
  have hall : (glyphsFrom false later).takeWhile (·.carriesName) = glyphsFrom false later :=
    List.takeWhile_eq_self_iff.mpr hrun
  have hname := takeWhile_glyphsFrom later
  rw [hall, map_char_glyphsFrom] at hname
  have hwritten : withoutBlanks (later.takeWhile isNameChar) = later.takeWhile isNameChar :=
    List.filter_eq_self.mpr fun c hc => by
      simp [isBlank_of_isNameChar (List.all_eq_true.mp List.all_takeWhile c hc)]
  have hsplit := List.takeWhile_append_dropWhile (p := isNameChar) (l := later)
  have hnone : withoutBlanks (later.dropWhile isNameChar) = [] := by
    rw [← hsplit, withoutBlanks, List.filter_append, ← withoutBlanks, ← withoutBlanks, hsplit,
      hwritten] at hname
    exact List.append_right_eq_self.mp hname
  have hblanks : ∀ c ∈ later.dropWhile isNameChar, isBlank c = true := by
    simpa [withoutBlanks] using hnone
  have htail : later.dropWhile isNameChar = [] := by
    by_contra hne
    rw [← hsplit, ← List.cons_append, ← List.append_assoc, endsBlank_append,
      endsBlank_blanks hblanks hne] at hlast
    cases hlast
  rw [htail, List.append_nil] at hsplit
  refine ⟨front, later, rfl, fun c hc => ?_⟩
  rw [← hsplit] at hc
  exact List.all_eq_true.mp List.all_takeWhile c hc

/-! ## Blanks put into a text -/

/-- A run of blanks put into a lowered text changes no piece, if it is not put into a name. -/
theorem piecesFrom_blanks {u w v : List Char} (hw : ∀ c ∈ w, isBlank c = true) (hne : w ≠ [])
    (h : ¬ ((∃ front name, u = front ++ '@' :: name ∧ ∀ c ∈ name, isNameChar c = true) ∧
      ∃ c ∈ v.head?, isNameChar c = true)) :
    piecesFrom false 0 (glyphsFrom false (u ++ (w ++ v))) =
      piecesFrom false 0 (glyphsFrom false (u ++ v)) := by
  rw [glyphsFrom_append_text, glyphsFrom_append_text false u v, glyphsFrom_append_text _ w v,
    glyphsFrom_blanks hw, List.nil_append, endsBlank_blanks hw hne]
  cases hlast : endsBlank false u with
  | true => rfl
  | false =>
    cases v with
    | nil => rfl
    | cons c v =>
      cases hc : isBlank c with
      | true => rw [glyphsFrom_of_blank hc, glyphsFrom_of_blank hc]
      | false =>
        rw [glyphsFrom_of_not_blank hc, glyphsFrom_of_not_blank hc]
        exact piecesFrom_opensWord false 0 fun hname hrun =>
          h ⟨name_of_runsOn hrun hlast, c, rfl, hname⟩

/-! ## Names -/

/-- A character that names are written with, letters in either case. -/
def isNameLetter (c : Char) : Bool := c.isAlphanum || c == '_'

theorem isNameChar_toLower {c : Char} (h : c.toNat < 128) :
    isNameChar c.toLower = isNameLetter c :=
  forall_ascii (P := fun c => isNameChar c.toLower = isNameLetter c) (by decide) h

/-- The text ends within a variable: in its mark and what is written of its name. -/
def EndsInName (text : String) : Prop :=
  ∃ front name, text.toList = front ++ '@' :: name ∧ ∀ c ∈ name, isNameLetter c = true

/-- The text begins with a character that names are written with. -/
def BeginsName (text : String) : Prop := ∃ c ∈ text.toList.head?, isNameLetter c = true

/-- Tokens at one place are one token. -/
theorem StandIn.eq_of_position {ts : List Token} {cs : List Char} (h : StandIn ts cs)
    {t u : Token} (ht : t ∈ ts) (hu : u ∈ ts) (hplace : t.position = u.position) : t = u := by
  have hnodup : (ts.map (·.position)).Nodup := List.pairwise_map.mpr (h.ordered.imp Int.ne_of_lt)
  exact List.inj_on_of_nodup_map hnodup ht hu hplace

/-- What is written of a name behind its mark, in the lower case of an ASCII text. -/
theorem text_ofMark_of_ascii {right : List Char} (h : ∀ c ∈ right, c.toNat < 128) (place : Nat) :
    (Token.ofMark (glyphsBehind 0 right) place).text.toList =
      '@' :: (right.takeWhile isNameLetter).map Char.toLower := by
  rw [Token.ofMark, String.toList_ofList, takeWhile_glyphsBehind, lower_of_ascii h,
    takeWhile_map_toLower (fun _ => isNameChar_toLower) h]

/-- The variable at a mark of an ASCII text. -/
theorem ofMark_mem_tokens {front : List Char} (h : ∀ c ∈ front, c.toNat < 128)
    (right : List Char) :
    Token.ofMark (glyphsBehind 0 right) (normalForm front).length ∈
      tokens (front ++ '@' :: right) := by
  have hnone : front.count dottedI = 0 := List.count_eq_zero.mpr fun hmem =>
    absurd (h dottedI hmem) (by decide)
  exact (mem_tokens_named.mpr ⟨front, right, rfl, by rw [hnone]⟩).1

theorem isNameLetter_of_isBlank {c : Char} (h : c.toNat < 128) (hblank : isBlank c = true) :
    isNameLetter c = false :=
  forall_ascii (P := fun c => isBlank c = true → isNameLetter c = false) (by decide) h hblank

/-- Tokens are not the same if a name goes on in one text and ends at a blank in the other. -/
theorem tokens_blanks_ne {front name w v : List Char} {b d : Char}
    (hname : ∀ c ∈ name, isNameLetter c = true) (hb : isBlank b = true)
    (hd : isNameLetter d = true)
    (hascii : ∀ c ∈ front ++ '@' :: (name ++ b :: (w ++ d :: v)), c.toNat < 128) :
    tokens (front ++ '@' :: (name ++ b :: (w ++ d :: v))) ≠
      tokens (front ++ '@' :: (name ++ d :: v)) := by
  intro heq
  simp only [List.forall_mem_append, List.forall_mem_cons] at hascii
  obtain ⟨hfront, -, hasciiName, hasciiB, hasciiW, hasciiD, hasciiV⟩ := hascii
  -- The variable at the mark is in both, so its text is the same in both.
  have hcut := ofMark_mem_tokens hfront (name ++ b :: (w ++ d :: v))
  have hwhole := ofMark_mem_tokens hfront (name ++ d :: v)
  rw [← heq] at hwhole
  have htoken := (standIn_tokens _).eq_of_position hcut hwhole rfl
  have htext := congrArg (fun t => t.text.toList) htoken
  rw [text_ofMark_of_ascii, text_ofMark_of_ascii, List.takeWhile_append_of_pos hname,
    List.takeWhile_append_of_pos hname, List.takeWhile_cons_of_neg, List.takeWhile_cons_of_pos hd]
    at htext
  · have hlength := congrArg List.length htext
    simp at hlength
  · simp [isNameLetter_of_isBlank hasciiB hb]
  · simp only [List.forall_mem_append, List.forall_mem_cons]
    exact ⟨hasciiName, hasciiD, hasciiV⟩
  · simp only [List.forall_mem_append, List.forall_mem_cons]
    exact ⟨hasciiName, hasciiB, hasciiW, hasciiD, hasciiV⟩

/-! ## Reading -/

/-- What is read of a text hangs on its pieces and on the length of its normal form. -/
theorem readTokens_congr {text other : String} (hpieces : pieces text.toList = pieces other.toList)
    (hlength : (normalForm text.toList).length = (normalForm other.toList).length)
    (strict : Bool) : readTokens strict text = readTokens strict other := by
  rw [readTokens.eq_def, readTokens.eq_def, strays, strays, tokens, tokens, finishOf, finishOf,
    hpieces, hlength]

/-- An ASCII text ends within a variable if its lower case does. -/
theorem endsInName_of_lower {u : String} (hu : ∀ c ∈ u.toList, c.toNat < 128)
    {front name : List Char} (hsplit : u.toList.map Char.toLower = front ++ '@' :: name)
    (hname : ∀ c ∈ name, isNameChar c = true) : EndsInName u := by
  obtain ⟨left, tail, hleft, rfl, htail⟩ := List.map_eq_append_iff.mp hsplit
  obtain ⟨at', right, rfl, hat, rfl⟩ := List.map_eq_cons_iff.mp htail
  rw [hleft] at hu
  simp only [List.forall_mem_append, List.forall_mem_cons] at hu
  have hmark : at' = '@' :=
    forall_ascii (P := fun c => c.toLower = '@' → c = '@') (by decide) hu.2.1 hat
  refine ⟨left, right, by rw [hleft, hmark], fun c hc => ?_⟩
  rw [← isNameChar_toLower (hu.2.2 c hc)]
  exact hname _ (List.mem_map_of_mem hc)

/-- **Blanks.**  A run of blanks put between two ASCII texts changes nothing of what is read in
    either mode, just if it is not put into the name of a variable. -/
theorem readTokens_blanks {u w v : String} (hu : ∀ c ∈ u.toList, c.toNat < 128)
    (hv : ∀ c ∈ v.toList, c.toNat < 128)
    (hw : ∀ c ∈ w.toList, isBlank c = true ∧ c.toNat < 128) (hne : w ≠ "") :
    (∀ strict, readTokens strict (u ++ w ++ v) = readTokens strict (u ++ v)) ↔
      ¬ (EndsInName u ∧ BeginsName v) := by
  have hwne : w.toList ≠ [] := fun hnil => hne (String.toList_eq_nil_iff.mp hnil)
  constructor
  · -- In a name the first blank ends it, and the tokens show that.
    rintro hsame ⟨⟨front, name, hfront, hname⟩, d, hd, hletter⟩
    obtain ⟨more, hmore⟩ := List.head?_eq_some_iff.mp hd
    obtain ⟨b, blanks, hblanks⟩ := List.exists_cons_of_ne_nil hwne
    have htokens : tokens (u ++ w ++ v).toList = tokens (u ++ v).toList :=
      Except.ok.inj (hsame false)
    rw [String.toList_append, String.toList_append, String.toList_append] at htokens
    have hascii : ∀ c ∈ u.toList ++ w.toList ++ v.toList, c.toNat < 128 := by
      simp only [List.forall_mem_append]
      exact ⟨⟨hu, fun c hc => (hw c hc).2⟩, hv⟩
    have hb : isBlank b = true := (hw b (by rw [hblanks]; exact List.mem_cons_self)).1
    simp only [hfront, hmore, hblanks, List.append_assoc, List.cons_append] at htokens hascii
    exact tokens_blanks_ne hname hb hletter hascii htokens
  · -- Elsewhere the pieces are the same, and the normal form has no blanks anyway.
    intro hnone
    have hboth : ∀ c ∈ (u ++ v).toList, c.toNat < 128 := by
      simp only [String.toList_append, List.forall_mem_append]
      exact ⟨hu, hv⟩
    have hall : ∀ c ∈ (u ++ w ++ v).toList, c.toNat < 128 := by
      simp only [String.toList_append, List.forall_mem_append]
      exact ⟨⟨hu, fun c hc => (hw c hc).2⟩, hv⟩
    have hlowered : ∀ c ∈ w.toList.map Char.toLower, isBlank c = true := by
      intro c hc
      obtain ⟨d, hd, rfl⟩ := List.mem_map.mp hc
      rw [isBlank_toLower (hw d hd).2, (hw d hd).1]
    refine readTokens_congr ?_ ?_
    · rw [pieces_of_ascii hall, pieces_of_ascii hboth]
      simp only [String.toList_append, List.map_append, List.append_assoc]
      refine piecesFrom_blanks hlowered (by simpa using hwne) ?_
      rintro ⟨⟨front, name, hsplit, hname⟩, d, hd, hletter⟩
      refine hnone ⟨endsInName_of_lower hu hsplit hname, ?_⟩
      rw [List.head?_map, Option.mem_def, Option.map_eq_some_iff] at hd
      obtain ⟨c, hc, rfl⟩ := hd
      exact ⟨c, hc, by rwa [← isNameChar_toLower (hv c (List.mem_of_mem_head? hc))]⟩
    · have hgone : (w.toList.map Char.toLower).filter (fun c => !isBlank c) = [] :=
        List.filter_eq_nil_iff.mpr fun c hc => by simp [hlowered c hc]
      rw [normalForm, normalForm, lower_of_ascii hall, lower_of_ascii hboth, withoutBlanks,
        withoutBlanks]
      simp only [String.toList_append, List.map_append, List.filter_append, hgone,
        List.append_nil]

/-- Blanks before and behind the letter of dice, and a blank inside of a name. -/
theorem readTokens_blanks_sides :
    (∀ strict, readTokens strict ("4D" ++ " \t" ++ "6kh3") = readTokens strict ("4D" ++ "6kh3")) ∧
      ¬ ∀ strict, readTokens strict ("1+@a" ++ " " ++ "B") = readTokens strict ("1+@a" ++ "B") := by
  constructor
  · refine (readTokens_blanks (by simp) (by simp) (by simp [isBlank]) (by decide)).mpr ?_
    rintro ⟨⟨front, name, hsplit, -⟩, -⟩
    have hmark : '@' ∈ "4D".toList := by
      rw [hsplit]
      simp
    exact absurd hmark (by decide)
  · intro hsame
    refine (readTokens_blanks (by simp) (by simp) (by simp [isBlank]) (by decide)).mp hsame ⟨?_, ?_⟩
    · exact ⟨"1+".toList, "a".toList, rfl, List.all_eq_true.mp rfl⟩
    · exact ⟨'B', by decide, by decide⟩

end Tabletop
