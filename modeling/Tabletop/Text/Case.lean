/-
  Letter case: lower case, upper case and title case of a text.

  1. `lower` maps letter by letter, with one exception that looks at the neighbours: a capital
     sigma that ends a word becomes the final sigma.  The word is looked for through the characters
     that casing passes over, on both sides.
  2. `upper` maps letter by letter; one letter may become several.
  3. `title` gives the first letter of each run of cased letters its title case and lowers the rest.

  On ASCII all three are what they are for `Char`, so the tables serve the letters above it only.
-/
import Tabletop.Text.CaseTable
import Tabletop.Text.Blank

namespace Tabletop.Text

/-! ## One character -/

/-- The mapping of a code point by a table of runs; one that no run covers stays. -/
def mapByRuns (runs : List CaseRun) (c : Char) : Char :=
  match runs.find? (·.covers c.toNat) with
  | some run => Char.ofNat (c.toNat + run.shift).toNat
  | none => c

/-- The mapping of a character by a table of sequences, where it has one. -/
def sequence? (sequences : List (Nat × List Nat)) (c : Char) : Option (List Char) :=
  (sequences.lookup c.toNat).map fun codes => codes.map Char.ofNat

/-- The lower case of a character that stands by itself. -/
def lowerChar (c : Char) : List Char :=
  if c.toNat < 128 then [c.toLower]
  else (sequence? lowerSequences c).getD [mapByRuns lowerRuns c]

/-- The upper case of a character. -/
def upperChar (c : Char) : List Char :=
  if c.toNat < 128 then [c.toUpper]
  else (sequence? upperSequences c).getD [mapByRuns upperRuns c]

/-- The title case of a character: its upper case, but for the tables of exceptions. -/
def titleChar (c : Char) : List Char :=
  if c.toNat < 128 then [c.toUpper]
  else match sequence? titleSequences c with
    | some cs => cs
    | none => if titleRuns.any (·.covers c.toNat) then [mapByRuns titleRuns c] else upperChar c

/-- Whether a character is a letter that has a case. -/
def isCased (c : Char) : Bool :=
  if c.toNat < 128 then c.isAlpha else inRanges casedRanges c.toNat

/-- Whether casing passes over a character when it looks for the neighbouring letter: of ASCII the
    apostrophe, the full stop, the colon, the circumflex and the grave accent. -/
def isCaseIgnorable (c : Char) : Bool :=
  if c.toNat < 128 then [0x27, 0x2E, 0x3A, 0x5E, 0x60].contains c.toNat
  else inRanges caseIgnorableRanges c.toNat

/-! ## Texts -/

/-- The capital sigma, the one letter whose lower case hangs on its neighbours. -/
def capitalSigma : Char := 'Σ'

/-- The small sigma. -/
def smallSigma : Char := 'σ'

/-- The small sigma that ends a word. -/
def finalSigma : Char := 'ς'

/-- Whether a text goes on with a cased letter, after what casing passes over. -/
def startsCased (text : List Char) : Bool :=
  match text.dropWhile isCaseIgnorable with
  | [] => false
  | c :: _ => isCased c

/-- The lower case of a character, `afterCased` telling whether a cased letter comes before it and
    `rest` being what follows it. -/
def lowerHere (afterCased : Bool) (c : Char) (rest : List Char) : List Char :=
  if c = capitalSigma then [if afterCased && !startsCased rest then finalSigma else smallSigma]
  else lowerChar c

/-- The lower case of a text that continues another one. -/
def lowerFrom (afterCased : Bool) : List Char → List Char
  | [] => []
  | c :: rest =>
    lowerHere afterCased c rest ++
      lowerFrom (if isCaseIgnorable c then afterCased else isCased c) rest

/-- The lower case of a text. -/
def lower (text : List Char) : List Char := lowerFrom false text

/-- The upper case of a text. -/
def upper (text : List Char) : List Char := text.flatMap upperChar

/-- The title case of a text that continues another one: `afterCased` as for `lowerHere`, and
    `inWord` telling whether the very last character was a cased letter. -/
def titleFrom (afterCased inWord : Bool) : List Char → List Char
  | [] => []
  | c :: rest =>
    (if inWord then lowerHere afterCased c rest else titleChar c) ++
      titleFrom (if isCaseIgnorable c then afterCased else isCased c) (isCased c) rest

/-- The title case of a text. -/
def title (text : List Char) : List Char := titleFrom false false text

/-! ## The same on strings -/

/-- The lower case of a string. -/
def lowered (s : String) : String := String.ofList (lower s.toList)

/-- The upper case of a string. -/
def uppered (s : String) : String := String.ofList (upper s.toList)

/-- The title case of a string. -/
def titled (s : String) : String := String.ofList (title s.toList)

example : lower "1D20 KH".toList = "1d20 kh".toList := by decide
example : lower "ΑΣ".toList = "ας".toList := by decide +kernel
example : upper "straße".toList = "STRASSE".toList := by decide +kernel
example : title "it's d8".toList = "It'S D8".toList := by decide

end Tabletop.Text
