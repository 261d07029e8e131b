/-
  Pieces: the dice notation cut into tokens and stray characters.

  1. **Lexemes** — `lexeme?` reads the token at the head of the glyphs, or finds that none begins
     there.  One letter hangs on what was read before: `dh` and `dl` drop dice after an operand and
     after a bare `!`, everywhere else `dh` opens a Hope/Fear roll.
  2. **Pieces** — the glyphs fall into tokens and stray characters, and nothing is lost: strict
     reading refuses the first stray, lenient reading passes over all of them, and both see the same
     pieces.

  Every lexeme has at least the character at the head, so the rest is shorter and `piecesFrom` ends.
-/
import Tabletop.Event
import Tabletop.Notation.Glyph
import Tabletop.Text.Word

namespace Tabletop

open Text

/-! ## Lexemes -/

/-- The characters that begin a comparison. -/
def isComparisonChar (c : Char) : Bool := c == '<' || c == '>' || c == '='

/-- The characters that are arithmetic operators. -/
def isOperatorChar (c : Char) : Bool := c == '+' || c == '-' || c == '*' || c == '/'

/-- Whether a glyph carries on the variable name before it. -/
def Glyph.carriesName (g : Glyph) : Bool := isNameChar g.char && !g.opensWord

/-- The kind of the token whose text begins with `c` and goes on with `rest`, and how many glyphs of
    `rest` it takes; none where no token begins.  `afterOperand` tells that the token before ends in
    an operand, or is a bare `!`. -/
def lexeme? (afterOperand : Bool) (c : Char) (rest : List Glyph) : Option (TokenKind × Nat) :=
  let next := rest.head?.map (·.char)
  if isDigit c then some (.number, (rest.takeWhile (isDigit ·.char)).length)
  else if c = '@' then some (.named, (rest.takeWhile (·.carriesName)).length)
  else if c = 'd' then
    if (next = some 'h' ∨ next = some 'l') ∧ afterOperand then some (.modifier, 1)
    else if next = some 'h' then some (.hopeFear, 1)
    else if next = some 'f' then some (.fate, 1)
    else some (.dice, 0)
  else if c = 'a' ∧ next.any (fun n => isDigit n || n == '@') then some (.advantage, 0)
  else if c = 't' ∧ next.any isComparisonChar then some (.target, 0)
  else if isOperatorChar c then some (.operator, 0)
  else if c = '(' then some (.openParen, 0)
  else if c = ')' then some (.closeParen, 0)
  else if isComparisonChar c then
    if (c = '<' ∨ c = '>') ∧ next = some '=' then some (.comparison, 1) else some (.comparison, 0)
  else if c = 'k' then
    if next = some 'h' ∨ next = some 'l' then some (.modifier, 1) else some (.modifier, 0)
  else if c = 'r' then
    if next = some 'o' then some (.modifier, 1) else some (.modifier, 0)
  else if c = '!' then some (.modifier, 0)
  else none

/-- Whether `dh` and `dl` drop dice after this token. -/
def Token.endsOperand (token : Token) : Bool :=
  match token.kind with
  | .number | .named => true
  | .modifier => token.text == "!"
  | _ => false

/-! ## Pieces -/

/-- A piece of the notation: a token, or a character that belongs to none. -/
inductive Piece where
  | token (token : Token)
  | stray (char : Char) (position : Nat)
  deriving DecidableEq, Repr

/-- The pieces of glyphs that begin at `position`. -/
def piecesFrom (afterOperand : Bool) (position : Nat) : List Glyph → List Piece
  | [] => []
  | g :: rest =>
    match lexeme? afterOperand g.char rest with
    | some (kind, extra) =>
      let text := String.ofList (g.char :: (rest.take extra).map (·.char))
      let token : Token := ⟨kind, text, position⟩
      .token token :: piecesFrom token.endsOperand (position + 1 + extra) (rest.drop extra)
    | none => .stray g.char position :: piecesFrom afterOperand (position + 1) rest
termination_by gs => gs.length

/-- The pieces of a text. -/
def pieces (text : List Char) : List Piece := piecesFrom false 0 (glyphs text)

namespace Piece

/-- The token of a piece that is one. -/
def token? : Piece → Option Token
  | token t => some t
  | stray _ _ => none

/-- The stray character of a piece that is one, with its place. -/
def stray? : Piece → Option (Char × Nat)
  | token _ => none
  | stray c p => some (c, p)

end Piece

/-! ## Reading -/

/-- The token that ends the notation of a text. -/
def finishOf (text : List Char) : Token := ⟨.finish, "", (normalForm text).length⟩

/-- The tokens of a text, stray characters passed over. -/
def tokens (text : List Char) : List Token :=
  (pieces text).filterMap Piece.token? ++ [finishOf text]

/-- The stray characters of a text. -/
def strays (text : List Char) : List (Char × Nat) := (pieces text).filterMap Piece.stray?

/-- The tokens of a text, or the first stray character when reading is strict. -/
def readTokens (strict : Bool) (text : String) : Except ExprError (List Token) :=
  match strict, strays text.toList with
  | true, (c, position) :: _ => .error (.stray c position)
  | _, _ => .ok (tokens text.toList)

/-- What reading notes: the characters that it passes over. -/
def readingEvents (strict : Bool) (text : String) : List Event :=
  if strict then [] else (strays text.toList).map fun s => .skipped s.1 s.2

example : (tokens "4D6 dh1".toList).map (·.text) = ["4", "d", "6", "dh", "1", ""] := by
  decide +kernel
example : (tokens "dh a@x d@y".toList).map (·.text) = ["dh", "a", "@x", "d", "@y", ""] := by
  decide +kernel

end Tabletop
