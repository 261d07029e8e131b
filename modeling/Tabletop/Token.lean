/-
  Tokens of the dice notation.
-/

namespace Tabletop

/-- The kinds of token.

    `advantage` is the letter a before a digit or a variable, `target` the letter t before a
    comparison, `finish` the end of the text. -/
inductive TokenKind where
  | number
  | named
  | dice
  | hopeFear
  | fate
  | advantage
  | operator
  | modifier
  | comparison
  | target
  | openParen
  | closeParen
  | finish
  deriving DecidableEq, Repr

/-- What a kind of token is called in messages. -/
def TokenKind.label : TokenKind → String
  | number => "NUMBER"
  | named => "VARIABLE"
  | dice => "DICE"
  | hopeFear => "HOPE_FEAR"
  | fate => "FATE"
  | advantage => "ADVANTAGE"
  | operator => "OPERATOR"
  | modifier => "MODIFIER"
  | comparison => "COMPARISON"
  | target => "TARGET"
  | openParen => "LPAREN"
  | closeParen => "RPAREN"
  | finish => "EOF"

/-- A token: its kind, its text, and where the text begins in the normalized notation. -/
structure Token where
  kind : TokenKind
  text : String
  position : Int
  deriving DecidableEq, Repr

end Tabletop
