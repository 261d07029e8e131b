/-
  Plain data: integers, flags, texts, lists and records.

  A record keeps the order of its fields.  `render` writes data as one line of JSON text with a
  space after each comma and each colon; in a text it escapes the two characters that must be
  escaped and the controls, and leaves all else as it is.
-/
import Tabletop.Numeral
import Tabletop.Text.Quoted

namespace Tabletop

/-- A piece of plain data. -/
inductive Datum where
  | integer (n : Int)
  | flag (b : Bool)
  | text (s : String)
  | list (items : List Datum)
  | record (fields : List (String × Datum))

namespace Datum

/-! ## Texts -/

/-- A character as it stands inside a written text. -/
def escape (c : Char) : List Char :=
  let n := c.toNat
  if c = Text.doubleQuote ∨ c = '\\' then ['\\', c]
  else if n = 8 then ['\\', 'b']
  else if n = 9 then ['\\', 't']
  else if n = 10 then ['\\', 'n']
  else if n = 12 then ['\\', 'f']
  else if n = 13 then ['\\', 'r']
  else if n < 32 then '\\' :: 'u' :: Text.hexadecimal 4 n
  else [c]

/-- A text as it is written, quotes included. -/
def renderText (s : String) : String :=
  String.ofList (Text.doubleQuote :: s.toList.flatMap escape ++ [Text.doubleQuote])

/-! ## Data -/

mutual

/-- Data written on one line. -/
def render : Datum → String
  | integer n => Numeral.decimal n
  | flag b => if b then "true" else "false"
  | text s => renderText s
  | list items => "[" ++ ", ".intercalate (renderItems items) ++ "]"
  | record fields => "\x7b" ++ ", ".intercalate (renderFields fields) ++ "\x7d"

/-- The items of a list, each written by itself. -/
def renderItems : List Datum → List String
  | [] => []
  | item :: rest => render item :: renderItems rest

/-- The fields of a record, each written by itself. -/
def renderFields : List (String × Datum) → List String
  | [] => []
  | (key, value) :: rest => (renderText key ++ ": " ++ render value) :: renderFields rest

end

mutual

/-- The integers in a piece of data. -/
def numbers : Datum → List Int
  | integer n => [n]
  | flag _ => []
  | text _ => []
  | list items => numbersOfItems items
  | record fields => numbersOfFields fields

/-- The integers in the items of a list. -/
def numbersOfItems : List Datum → List Int
  | [] => []
  | item :: rest => numbers item ++ numbersOfItems rest

/-- The integers in the fields of a record. -/
def numbersOfFields : List (String × Datum) → List Int
  | [] => []
  | (_, value) :: rest => numbers value ++ numbersOfFields rest

end

end Datum

end Tabletop
