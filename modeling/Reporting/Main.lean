import Reporting.CommandLine.Run

/-!
# Main — the program

Runs a command line where it is called: variables and files are those of the system, and how the run
ends becomes text and an exit code.
-/

namespace Reporting.CommandLine

/-- What is found at a path of the system. -/
def entryAt (path : String) : IO Entry := do
  try
    pure (.ofBytes (← IO.FS.readBinFile path))
  catch
    | .noFileOrDirectory .. => pure .missing
    | e => pure (.unreadable (toString e))

/-- The place where the program runs. -/
def system : Surroundings IO := ⟨fun name => IO.getEnv name, entryAt⟩

/-- Runs a command line and reports how it ended. -/
def report (arguments : List String) : IO UInt32 := do
  match ← perform system arguments with
  | .success output =>
    (← IO.getStdout).putStr output
    pure 0
  | .failure cause =>
    IO.eprintln cause.message
    pure 1
  | .misuse =>
    IO.eprint usage
    pure 2

end Reporting.CommandLine

/-- The program. -/
def main (arguments : List String) : IO UInt32 := Reporting.CommandLine.report arguments
