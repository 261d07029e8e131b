/-
  The lines of a settings file.

      MAX_DICE=20
      export MAX_SIDES = "100"   # quoted
      # a comment
      MAX_DEPTH=${DEPTH:-50}

  1. **Lines** — a line binds a name to a value, or to none; `export` may stand before the name, and
     blanks around both.  A value in quotes is what stands between them, where a backslash escapes
     the quote and some letters, and it may go on over several lines.  Any other value goes to the
     end of the line, or to the blanks before a comment.  A line of another form binds nothing.
  2. **References** — in a value `${NAME}` stands for what the lines before bind the name to, or the
     environment if they do not; `${NAME:-default}` stands for the default if neither does.
-/
import Tabletop.Bindings
import Tabletop.Text.Blank
import Tabletop.Text.Quoted

namespace Tabletop

open Text

namespace SettingsFile

/-! ## Values in quotes -/

/-- What a backslash and a letter stand for between single quotes. -/
def singleEscapes : List (Char × Char) := [('\\', '\\'), (singleQuote, singleQuote)]

/-- What a backslash and a letter stand for between double quotes. -/
def doubleEscapes : List (Char × Char) :=
  singleEscapes ++ [(doubleQuote, doubleQuote), ('a', '\x07'), ('b', '\x08'), ('f', '\x0c'),
    ('n', '\n'), ('r', '\r'), ('t', '\t'), ('v', '\x0b')]

/-- A text with its escapes replaced. -/
def unescaped (escapes : List (Char × Char)) : List Char → List Char
  | '\\' :: c :: rest =>
    match escapes.lookup c with
    | some d => d :: unescaped escapes rest
    | none => '\\' :: unescaped escapes (c :: rest)
  | c :: rest => c :: unescaped escapes rest
  | [] => []

/-- A text up to the first quote that no backslash stands before, and what is behind that quote;
    `previous` is the character in front of the text. -/
def firstQuoted? (mark : Char) : Char → List Char → Option (List Char × List Char)
  | _, [] => none
  | previous, c :: rest =>
    if c = mark ∧ previous ≠ '\\' then some ([], rest)
    else (firstQuoted? mark c rest).map fun parts => (c :: parts.1, parts.2)

/-- A text up to its last quote, and what is behind that. -/
def lastQuoted? (mark : Char) (text : List Char) : Option (List Char × List Char) :=
  match text.reverse.dropWhile (· != mark) with
  | [] => none
  | _ :: inside => some (inside.reverse, (text.reverse.takeWhile (· != mark)).reverse)

/-- A text behind a quote up to the quote that closes it, and what is behind that.  A quote behind a
    backslash closes nothing, unless there is no other. -/
def quoted? (mark : Char) (text : List Char) : Option (List Char × List Char) :=
  firstQuoted? mark mark text <|> lastQuoted? mark text

/-- Whether nothing but blanks and a comment is left of a line. -/
def endsHere (rest : List Char) : Bool :=
  match trimLeft rest with
  | [] => true
  | c :: _ => c == '#'

/-- The value behind a quote, if nothing but a comment follows it on its last line; with the number
    of further lines that it goes on over. -/
def quotedValue (mark : Char) (escapes : List (Char × Char)) (rest : List Char)
    (lines : List (List Char)) : Option (List Char) × Nat :=
  match quoted? mark (['\n'].intercalate (rest :: lines)) with
  | none => (none, 0)
  | some (inside, behind) =>
    let value :=
      if endsHere (behind.takeWhile (· != '\n')) then some (unescaped escapes inside) else none
    (value, inside.count '\n')

/-! ## Lines -/

/-- What stands before the comment that a text ends in: a comment begins with a number sign behind
    blanks. -/
def beforeComment : List Char → List Char
  | [] => []
  | c :: rest =>
    if isBlank c ∧ (trimLeft rest).head? = some '#' then [] else c :: beforeComment rest

/-- The value behind the equals sign and its blanks, with the number of further lines that it goes
    on over. -/
def value (lines : List (List Char)) : List Char → Option (List Char) × Nat
  | [] => (some [], 0)
  | c :: rest =>
    if c = singleQuote then quotedValue c singleEscapes rest lines
    else if c = doubleQuote then quotedValue c doubleEscapes rest lines
    else (some (trim (beforeComment (c :: rest))), 0)

/-- The word that may stand before a name. -/
def exportWord : List Char := "export".toList

/-- A line without `export` and the blanks behind it, where it begins with these. -/
def withoutExport (line : List Char) : List Char :=
  let rest := line.drop exportWord.length
  if line.take exportWord.length = exportWord ∧ (rest.head?).any isBlank then trimLeft rest
  else line

/-- Whether a character may stand in a name that is not in quotes. -/
def isNamePart (c : Char) : Bool := c != '=' && c != '#' && !isBlank c

/-- The name that a text begins with, and what is behind it; it may stand in single quotes. -/
def name? : List Char → Option (List Char × List Char)
  | [] => none
  | c :: rest =>
    let (name, behind) :=
      if c = singleQuote then
        (rest.takeWhile (· != singleQuote), (rest.dropWhile (· != singleQuote)).drop 1)
      else ((c :: rest).takeWhile isNamePart, (c :: rest).dropWhile isNamePart)
    if name = [] ∨ (c = singleQuote ∧ singleQuote ∉ rest) then none else some (name, behind)

/-- What a line binds, with the number of further lines that its value goes on over. -/
def entry (line : List Char) (lines : List (List Char)) :
    Option (List Char × Option (List Char)) × Nat :=
  match name? (withoutExport (trimLeft line)) with
  | none => (none, 0)
  | some (name, rest) =>
    match trimLeft rest with
    | '=' :: more =>
      let (value, further) := value lines (trimLeft more)
      (value.map fun value => (name, some value), further)
    | rest => (if endsHere rest then some (name, none) else none, 0)

/-! ## References -/

/-- A piece of a value: a character, or a reference with its default. -/
inductive Atom where
  | letter (c : Char)
  | reference (name default : List Char)
  deriving DecidableEq, Repr

/-- The reference that goes on with a text behind its opening brace, and how long it is from
    there. -/
def reference? (text : List Char) : Option (Atom × Nat) :=
  let name := text.takeWhile fun c => c != '\x7d' && c != ':'
  match text.drop name.length with
  | '\x7d' :: _ => some (.reference name [], name.length + 1)
  | ':' :: '-' :: more =>
    let default := more.takeWhile (· != '\x7d')
    if '\x7d' ∈ more then some (.reference name default, name.length + default.length + 3)
    else none
  | _ => none

/-- The pieces of a value behind so many characters. -/
def atomsFrom : Nat → List Char → List Atom
  | _, [] => []
  | skipped + 1, _ :: rest => atomsFrom skipped rest
  | 0, c :: rest =>
    let found := if c = '$' ∧ rest.head? = some '\x7b' then reference? (rest.drop 1) else none
    match found with
    | some (atom, length) => atom :: atomsFrom (length + 1) rest
    | none => .letter c :: atomsFrom 0 rest

/-- The pieces of a value. -/
def atoms (value : List Char) : List Atom := atomsFrom 0 value

/-- The names that lines refer to. -/
def references (lines : List String) : List String :=
  (lines.flatMap fun line => atoms line.toList).filterMap fun
    | .letter _ => none
    | .reference name _ => some (String.ofList name)

/-- What a piece of a value stands for; a name that the lines before bind to no value stands for
    nothing. -/
def Atom.text (environment : Bindings String) (entries : Bindings (Option String)) :
    Atom → List Char
  | letter c => [c]
  | reference name default =>
    match entries.get? (String.ofList name) with
    | some value => (value.getD "").toList
    | none => ((environment.get? (String.ofList name)).map String.toList).getD default

/-! ## Files -/

/-- What lines bind behind so many of them, added to what those before bind. -/
def entriesFrom (environment : Bindings String) :
    Nat → List (List Char) → Bindings (Option String) → Bindings (Option String)
  | _, [], entries => entries
  | skipped + 1, _ :: lines, entries => entriesFrom environment skipped lines entries
  | 0, line :: lines, entries =>
    let (found, further) := entry line lines
    let text (value : List Char) : String :=
      String.ofList ((atoms value).flatMap (Atom.text environment entries))
    let entries :=
      match found with
      | some (name, value) => entries.insert (String.ofList name) (value.map text)
      | none => entries
    entriesFrom environment further lines entries

/-- What lines bind; of two that bind one name the later one stands. -/
def entries (environment : Bindings String) (lines : List String) : Bindings (Option String) :=
  entriesFrom environment 0 (lines.map String.toList) []

example : entries [] [" export A = 5 # five", "# B=5"] = [("A", some "5")] := by decide +kernel
example : entries [] ["A=\"x #\\t", "y\" # z"] = [("A", some "x #\t\ny")] := by decide +kernel
example : entries [("A", "1")] ["B=$\x7bA\x7d0", "A", "C=$\x7bA\x7d$\x7bD:-2\x7d"] =
    [("B", some "10"), ("A", none), ("C", some "2")] := by decide +kernel

end SettingsFile

end Tabletop
