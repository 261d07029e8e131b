/-
  Variables from outside: the names in a text, and tables written as options.

  1. `variablesOf` lists the names after `@` in a text, letters in either case.  Letters are
     compared as caseless search compares them: four letters above ASCII count as i, k and s.
  2. `tableOfOptions` reads options `NAME=VALUE`; the name may carry its mark, and of two options
     for one name the later one stands.
-/
import Tabletop.Bindings
import Tabletop.Numeral
import Tabletop.Text.Blank

namespace Tabletop

open Text

/-! ## Names in a text -/

/-- What a name is written with, in either case: the dotted and the dotless i, the long s and the
    sign for kelvin are letters of it. -/
def isVariableChar (c : Char) : Bool :=
  isNameChar c || ('A' ≤ c && c ≤ 'Z') || [0x130, 0x131, 0x17F, 0x212A].contains c.toNat

/-- The names after the marks in a text, as they are written. -/
def mentions : List Char → List (List Char)
  | [] => []
  | c :: rest =>
    let name := rest.takeWhile isVariableChar
    if c = '@' ∧ name ≠ [] then name :: mentions rest else mentions rest

/-- The names in a text in upper case, each once, in the order in which they come first. -/
def variablesOf (expression : String) : List String :=
  ((mentions expression.toList).map fun name => String.ofList (upper name)).eraseDups

/-! ## Options -/

/-- Why an option is no binding. -/
inductive OptionError where
  | malformed (item : String)
  | notInteger (name value : String)
  deriving DecidableEq, Repr

/-- What is wrong with an option. -/
def OptionError.message : OptionError → String
  | malformed item => "Invalid variable '" ++ item ++ "', expected NAME=VALUE"
  | notInteger name value => "Variable " ++ name ++ " must be an integer, got '" ++ value ++ "'"

/-- The name and the value of an option, each as it stands beside the first equals sign. -/
def splitOption (item : List Char) : List Char × Option (List Char) :=
  match item.dropWhile (· != '=') with
  | [] => (item, none)
  | _ :: value => (item.takeWhile (· != '='), some value)

/-- The binding that an option stands for. -/
def bindingOf (item : String) : Except OptionError (String × Int) :=
  match splitOption item.toList with
  | (_, none) => .error (.malformed item)
  | (name, some value) =>
    match (trim name).dropWhile (· == '@') with
    | [] => .error (.malformed item)
    | c :: cs =>
      let name := String.ofList (upper (c :: cs))
      match Numeral.read? (trim value) with
      | some n => .ok (name, n)
      | none => .error (.notInteger name (String.ofList value))

/-- The table that options stand for, on top of one that is there. -/
def extendTable (table : Bindings Int) : List String → Except OptionError (Bindings Int)
  | [] => .ok table
  | item :: rest =>
    match bindingOf item with
    | .ok (name, n) => extendTable (table.insert name n) rest
    | .error e => .error e

/-- The table that options stand for. -/
def tableOfOptions (items : List String) : Except OptionError (Bindings Int) :=
  extendTable [] items

example : variablesOf "1d20+@str+@Prof+@STR" = ["STR", "PROF"] := by decide +kernel
example : (tableOfOptions ["str=3", "@Dex=-1"]).toOption = some [("STR", 3), ("DEX", -1)] := by
  decide +kernel

end Tabletop
