/-
  The words of a rendered text, and what each of them is cut into.

  A word asks at most for the character behind it, and renderings are made so that it finds it: the
  letter before a size or a pool is followed by an operand, that before a target check by a
  comparison, and behind a number there is no further digit.  The one word that hangs on the token
  before it is `dh`.
-/
import Tabletop.Proofs.Notation.Cuts
import Tabletop.Proofs.Numeral
import Tabletop.Proofs.Rendering.Basic

namespace Tabletop

open Grammar Text

variable {after : Bool}

/-! ## Single words -/

/-- A word that is no operand. -/
theorem cuts_mark {after' : Bool} {Next : Option Char → Prop} {word : String} {c : Char}
    {cs : List Char} {kind : TokenKind} (hword : word.toList = c :: cs)
    (hchars : (c :: cs).all isLowerInk = true) (hkind : kind ∉ [.finish, .number, .named])
    (hafter : ∀ position, Token.endsOperand ⟨kind, word, position⟩ = after')
    (hlex : ∀ gs : List Glyph, Next (gs.head?.map (·.char)) →
      lexeme? after c (cs.map (⟨·, false⟩) ++ gs) = some (kind, cs.length)) :
    Cuts after word after' Next (One kind word) :=
  cuts_word hword (List.all_eq_true.mp hchars) (fun _ => Token.withinLimits_of_kind hkind)
    hafter hlex

/-- An operand begins with no letter that makes a longer word, and with no equals sign. -/
theorem not_letter_of_opensOperand {next : Option Char} (h : OpensOperand next) :
    next ≠ some 'h' ∧ next ≠ some 'l' ∧ next ≠ some 'f' ∧ next ≠ some '=' := by
  obtain ⟨c, hc, hd⟩ := h
  rw [Option.mem_def] at hc
  subst hc
  refine ⟨?_, ?_, ?_, ?_⟩ <;>
  · rintro ⟨⟩
    revert hd
    decide

/-- The letter before a target check. -/
theorem cuts_target : Cuts after "t" false OpensComparison (One .target "t") := by
  refine cuts_mark rfl rfl (by decide) (fun _ => rfl) fun gs hgs => ?_
  obtain ⟨c, hc, hd⟩ := hgs
  have hlex : lexeme? after 't' gs = some (.target, 0) := by
    rw [lexeme?, if_neg (by decide), if_neg (by decide), if_neg (by decide),
      if_neg (fun ha => absurd ha.1 (by decide)), if_pos ⟨rfl, by rw [hc]; simpa using hd⟩]
  exact hlex

/-- A character of a comparison is one by itself if no equals sign joins it. -/
theorem lexeme?_comparison {c : Char} (h : isComparisonChar c = true) {gs : List Glyph}
    (hnext : gs.head?.map (·.char) ≠ some '=') : lexeme? after c gs = some (.comparison, 0) := by
  have hc : c = '<' ∨ c = '>' ∨ c = '=' := by simpa [isComparisonChar, or_assoc] using h
  have hother : isDigit c = false ∧ c ≠ '@' ∧ c ≠ 'd' ∧ c ≠ 'a' ∧ c ≠ 't' ∧
      isOperatorChar c = false ∧ c ≠ '(' ∧ c ≠ ')' := by
    rcases hc with rfl | rfl | rfl <;> decide
  obtain ⟨hdigit, hat, hd, ha, ht, hoperator, hopen, hclose⟩ := hother
  rw [lexeme?, if_neg (by simp [hdigit]), if_neg hat, if_neg hd, if_neg (fun h => ha h.1),
    if_neg (fun h => ht h.1), if_neg (by simp [hoperator]), if_neg hopen, if_neg hclose, if_pos h,
    if_neg (fun h => hnext h.2)]

/-- A comparison before an operand is one token. -/
theorem cuts_comparison (comparison : Comparison) :
    Cuts after comparison.symbol false OpensOperand
      (One .comparison comparison.symbol) := by
  have hsingle : ∀ {word : String} {c : Char}, word.toList = [c] → isComparisonChar c = true →
      isLowerInk c = true → Cuts after word false OpensOperand (One .comparison word) := by
    intro word c hword hc hchar
    refine cuts_mark hword (by simpa using hchar) (by decide) (fun _ => rfl) fun gs hgs => ?_
    exact lexeme?_comparison hc (not_letter_of_opensOperand hgs).2.2.2
  cases comparison with
  | ge => exact cuts_mark rfl rfl (by decide) (fun _ => rfl) fun _ _ => rfl
  | le => exact cuts_mark rfl rfl (by decide) (fun _ => rfl) fun _ _ => rfl
  | gt => exact hsingle rfl (by decide) (by decide)
  | eq => exact hsingle rfl (by decide) (by decide)
  | lt => exact hsingle rfl (by decide) (by decide)

/-- Digits that no further one joins. -/
theorem cuts_number {text : String} (hne : text.toList ≠ [])
    (hdigits : ∀ c ∈ text.toList, isDigit c = true) (hlength : text.length ≤ numberLengthLimit) :
    Cuts after text true NoDigit (One .number text) := by
  obtain ⟨c, cs, htext⟩ := List.exists_cons_of_ne_nil hne
  rw [htext] at hdigits
  have hchars : ∀ d ∈ c :: cs, isLowerInk d = true := by
    intro d hd
    have hdigit := Numeral.toNat_of_isDigit (hdigits d hd)
    have hlower : d.toLower = d := toLower_of_unmapped (by omega) (by omega)
    have hblank : isBlank d = false := isBlank_of_isNameChar (by simp [isNameChar, hdigits d hd])
    simp only [isLowerInk, hlower, hblank, beq_self_eq_true, Bool.not_false, Bool.and_true,
      Bool.true_and, decide_eq_true_eq]
    omega
  have hwithin : ∀ position, Token.WithinLimits ⟨.number, text, position⟩ := fun _ =>
    ⟨fun _ => hlength, by rintro ⟨⟩⟩
  refine cuts_word htext hchars hwithin (fun _ => rfl) ?_
  intro gs hgs
  rw [List.forall_mem_cons] at hdigits
  have hstop : gs.takeWhile (isDigit ·.char) = [] := by
    cases gs with
    | nil => rfl
    | cons g gs => exact List.takeWhile_cons_of_neg (by simp [hgs g.char rfl])
  rw [lexeme?, if_pos hdigits.1, List.takeWhile_append_of_pos, hstop]
  · simp
  · intro g hg
    obtain ⟨d, hd, rfl⟩ := List.mem_map.mp hg
    exact hdigits.2 d hd

/-- What a capital of a name is in lower case, and back. -/
theorem of_isCapitalNameChar {c : Char} (h : isCapitalNameChar c = true) :
    c.toNat < 128 ∧ isNameChar c.toLower = true ∧ upperChar c.toLower = [c] := by
  have hlt : c.toNat < 128 := by
    simp only [isCapitalNameChar, isDigit, Bool.or_eq_true, Bool.and_eq_true, decide_eq_true_eq,
      beq_iff_eq] at h
    rcases h with (⟨-, hz⟩ | ⟨-, h9⟩) | rfl
    · exact Nat.lt_of_le_of_lt hz (by decide)
    · exact Nat.lt_of_le_of_lt h9 (by decide)
    · decide
  exact ⟨hlt, forall_ascii (P := fun c => isCapitalNameChar c = true → isNameChar c.toLower = true ∧
    upperChar c.toLower = [c]) (by decide +kernel) hlt h⟩

/-- A name in capital letters is the same when it is lowered and raised again. -/
theorem upper_toLower {name : List Char} (h : ∀ c ∈ name, isCapitalNameChar c = true) :
    upper (name.map Char.toLower) = name := by
  induction name with
  | nil => rfl
  | cons c name ih =>
    rw [List.forall_mem_cons] at h
    rw [List.map_cons, upper, List.flatMap_cons, ← upper, ih h.2, (of_isCapitalNameChar h.1).2.2]
    rfl

/-- A variable with a space behind its name, which is cut in lower case. -/
theorem cuts_named {name : String} (hne : name.toList ≠ [])
    (hname : ∀ c ∈ name.toList, isCapitalNameChar c = true) :
    Cuts after ("@" ++ name ++ " ") true Anything
      (One .named (String.ofList ('@' :: name.toList.map Char.toLower))) := by
  have hascii : ∀ c ∈ name.toList, c.toNat < 128 :=
    fun c hc => (of_isCapitalNameChar (hname c hc)).1
  constructor
  · simpa [String.toList_append, or_imp, forall_and] using hascii
  · intro mark position rest _
    have hlower : ∀ c ∈ name.toList.map Char.toLower, isNameChar c = true := by
      intro c hc
      obtain ⟨d, hd, rfl⟩ := List.mem_map.mp hc
      exact (of_isCapitalNameChar (hname d hd)).2.1
    have htext : lowerAscii ("@" ++ name ++ " ") =
        '@' :: name.toList.map Char.toLower ++ [' '] := by
      simp [lowerAscii]
    have hne' : name.toList.map Char.toLower ≠ [] := by simpa using hne
    rw [htext]
    -- From here on it counts only that these are characters of a name.
    generalize name.toList.map Char.toLower = cs at hlower hne'
    have hblank : ∀ c ∈ cs, isBlank c = false := fun c hc => isBlank_of_isNameChar (hlower c hc)
    have hglyphs : glyphsFrom mark ('@' :: cs ++ [' '] ++ rest) =
        ⟨'@', mark⟩ :: (cs.map (⟨·, false⟩) ++ glyphsFrom true rest) := by
      rw [List.append_assoc, List.cons_append, glyphsFrom_of_not_blank (by decide),
        glyphsFrom_word hblank, List.singleton_append, glyphsFrom_of_blank (by decide)]
    have hlex : lexeme? after '@' (cs.map (⟨·, false⟩) ++ glyphsFrom true rest) =
        some (.named, cs.length) := lexeme?_name hlower (takeWhile_glyphsFrom_true rest)
    refine ⟨[⟨.named, String.ofList ('@' :: cs), position⟩], true, position + 1 + cs.length, ?_, ?_,
      position, rfl⟩
    · rw [hglyphs, piecesFrom_word hlex]
      rfl
    · rw [List.forall_mem_singleton]
      refine ⟨by rintro ⟨⟩, fun _ hat => hne' ?_⟩
      have htext := congrArg String.toList hat
      rw [String.toList_ofList] at htext
      exact (List.cons.inj htext).2

theorem toList_render_number (n : Nat) :
    (Operand.number n).render.toList = Nat.toDigits 10 n :=
  String.toList_ofList

/-- The tokens are a single one, which is that operand. -/
def OneOperand (x : Operand) (ts : List Token) : Prop := ∃ t, ts = [t] ∧ IsOperand t x

/-- An operand is one token, if no digit comes behind it. -/
theorem cuts_operand {x : Operand} (h : x.Renderable) :
    Cuts after x.render true NoDigit (OneOperand x) := by
  cases x with
  | number n =>
    obtain ⟨hpos, hlt⟩ := h
    obtain ⟨n, rfl⟩ := Int.eq_ofNat_of_zero_le hpos
    have htext := toList_render_number n
    have hdigits : ∀ c ∈ (Operand.number n).render.toList, isDigit c = true := fun c hc =>
      Numeral.isDigit_of_mem_toDigits (htext ▸ hc)
    have hlength : (Operand.number n).render.length ≤ numberLengthLimit := by
      rw [← String.length_toList, htext, Nat.length_toDigits_le_iff (by decide) (by decide)]
      exact_mod_cast hlt
    have hne : (Operand.number n).render.toList ≠ [] := htext ▸ Nat.toDigits_ne_nil
    refine (cuts_number hne hdigits hlength).imp (fun _ h => h) ?_
    rintro _ ⟨position, rfl⟩
    have hoperand : IsOperand ⟨.number, (Operand.number n).render, position⟩
        (.number (Nat.ofDigitChars 10 (Operand.number n).render.toList 0)) :=
      .number rfl
    rw [htext, Nat.ofDigitChars_ten_toDigits] at hoperand
    exact ⟨_, rfl, hoperand⟩
  | named name =>
    obtain ⟨hne, hname⟩ := h
    refine (cuts_named hne hname).imp (fun _ _ => trivial) ?_
    rintro _ ⟨position, rfl⟩
    have hoperand : IsOperand
        ⟨.named, String.ofList ('@' :: name.toList.map Char.toLower), position⟩
        (.named (String.ofList (upper
          ((String.ofList ('@' :: name.toList.map Char.toLower)).toList.drop 1)))) :=
      .named rfl
    rw [String.toList_ofList, List.drop_one, List.tail_cons, upper_toLower hname,
      String.ofList_toList] at hoperand
    exact ⟨_, rfl, hoperand⟩

end Tabletop
