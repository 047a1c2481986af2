import FortranInterface.CommandLine.Outcome

/-!
The command line program.
-/

open FortranInterface

def readText (path : String) : IO (Option String) := do
  try
    return some (← IO.FS.readFile path)
  catch _ =>
    return none

def main (words : List String) : IO UInt32 := do
  let outcome ← CommandLine.outcome readText words
  (← IO.getStderr).putStr (CommandLine.Outcome.textOf outcome.errors)
  (← IO.getStdout).putStr (CommandLine.Outcome.textOf outcome.output)
  return outcome.exitCode.toUInt32
