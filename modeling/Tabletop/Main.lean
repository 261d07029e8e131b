/-
  The program: runs the command line on the environment and the terminal.
-/
import Tabletop.CommandLine

open Tabletop

/-- The environment variables that settings are read from, in either case. -/
def settingNames : List String :=
  [Field.explodeLimit, .rerollLimit, .maxDice, .maxSides, .maxDepth, .strict,
    .debug].flatMap fun field => [field.variableName, field.variableName.toUpper]

/-- The lines of the settings file, if there is one. -/
def readSettingsFile : IO (List String) := do
  try
    return (← IO.FS.lines ".env").toList
  catch _ => return []

/-- Where settings are read from: the file, and of the environment variables those that settings are
    read from and those that the file refers to. -/
def readOrigin : IO Origin := do
  let file ← readSettingsFile
  let mut environment : Bindings String := []
  for name in settingNames ++ SettingsFile.references file do
    if let some value ← IO.getEnv name then
      environment := environment.insert name value
  return { environment, file }

/-- How deep operators and target checks may lie inside one another. -/
def rollingDepth : Nat := 490

/-- A seed that nobody can guess. -/
def readSeed : IO Nat := do
  let bytes ← IO.getRandomBytes 8
  return bytes.toList.foldl (fun value byte => 256 * value + byte.toNat) 0

/-- What went wrong, for a run that ended without an exit code. -/
def failureText : CommandLine.Failure → String
  | .settings complaints =>
    "Invalid settings: " ++
      ", ".intercalate (complaints.map fun c => c.1.label ++ " (" ++ c.2.label ++ ")")
  | .defect d => d.message

/-- Runs the command line; events go to the error output when they are asked for. -/
def main (arguments : List String) : IO UInt32 := do
  let around : CommandLine.Surroundings := {
    settings := Settings.ofOrigin (← readOrigin)
    source := Source.congruence (← readSeed)
    depth := rollingDepth
    width := 100 }
  let run := CommandLine.runWords around arguments
  if run.debug then
    for event in run.ledger.events do
      IO.eprintln (event.level.label ++ " " ++ event.message)
  match run.exit with
  | .error failure =>
    IO.eprintln (failureText failure)
    return 1
  | .ok exit =>
    if exit.code = 2 then
      IO.eprintln "Usage: [--debug] roll|validate|vars|notation|examples [OPTIONS] [EXPRESSION]"
    IO.print exit.output
    return exit.code.toUInt32
