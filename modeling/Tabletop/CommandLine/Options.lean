/-
  Options and operands on a command line.

  A long option may carry its value behind an equals sign; short options may stand together behind
  one dash, and the rest behind one that takes a value is its value.  Where no value is attached the
  next word is taken, whatever it looks like.  Two dashes end the options; one dash is an operand.
-/

namespace Tabletop

namespace CommandLine

/-- An option: its long name, its letter if it has one, and whether it takes a value. -/
structure OptionSpec where
  long : String
  letter : Option Char := none
  takesValue : Bool := false
  deriving DecidableEq, Repr

/-- What stands on a command line: the options in order, each with its value if it takes one, and
    the operands. -/
structure Words where
  options : List (String × Option String) := []
  operands : List String := []
  deriving DecidableEq, Repr

namespace Words

/-- Whether an option is there. -/
def has (words : Words) (long : String) : Bool := words.options.any (·.1 == long)

/-- The values of an option, in order. -/
def values (words : Words) (long : String) : List String :=
  words.options.filterMap fun option => if option.1 == long then option.2 else none

end Words

/-- Puts an option in front of what follows it. -/
def Words.addOption (long : String) (value : Option String) (words : Words) : Words :=
  { words with options := (long, value) :: words.options }

/-- Reads a long option without its value, if it is known: its specification and what is attached
    to it. -/
def longOption? (specs : List OptionSpec) (word : List Char) :
    Option (OptionSpec × Option String) :=
  let name := String.ofList (word.takeWhile (· != '='))
  let attached := match word.dropWhile (· != '=') with
    | [] => none
    | _ :: value => some (String.ofList value)
  (specs.find? (·.long == name)).map fun spec => (spec, attached)

/-- Reads letters behind one dash.  The options among them, and the last of them by itself when it
    still wants a value. -/
def letters? (specs : List OptionSpec) :
    List Char → Option (List (String × Option String) × Option OptionSpec)
  | [] => some ([], none)
  | c :: rest =>
    match specs.find? (·.letter == some c) with
    | none => none
    | some spec =>
      if spec.takesValue then
        if rest.isEmpty then some ([], some spec)
        else some ([(spec.long, some (String.ofList rest))], none)
      else (letters? specs rest).map fun found => ((spec.long, none) :: found.1, found.2)

/-- Reads the words of a command line; none where an option is unknown, lacks its value or has one
    too many.  Unless `mixed`, the first operand ends the options. -/
def readWords (specs : List OptionSpec) (mixed : Bool) : List String → Option Words
  | [] => some {}
  | word :: rest =>
    match word.toList with
    | ['-', '-'] => some { operands := rest }
    | '-' :: '-' :: name =>
      match longOption? specs name with
      | none => none
      | some (spec, attached) =>
        if spec.takesValue then
          match attached with
          | some value => (readWords specs mixed rest).map (·.addOption spec.long (some value))
          | none =>
            match rest with
            | value :: rest' =>
              (readWords specs mixed rest').map (·.addOption spec.long (some value))
            | [] => none
        else if attached.isSome then none
        else (readWords specs mixed rest).map (·.addOption spec.long none)
    | '-' :: c :: cs =>
      match letters? specs (c :: cs) with
      | none => none
      | some (found, none) =>
        (readWords specs mixed rest).map fun words =>
          { words with options := found ++ words.options }
      | some (found, some spec) =>
        match rest with
        | value :: rest' =>
          (readWords specs mixed rest').map fun words =>
            { words with options := found ++ (spec.long, some value) :: words.options }
        | [] => none
    | _ =>
      if mixed then
        (readWords specs mixed rest).map fun words =>
          { words with operands := word :: words.operands }
      else some { operands := word :: rest }
termination_by words => words.length

end CommandLine

end Tabletop
