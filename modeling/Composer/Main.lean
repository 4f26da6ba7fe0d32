import Composer.CommandLine

/-!
The program: reads the arguments and the files they name, and prints what the run leaves behind.
-/

namespace Composer.CommandLine

def readFromDisk (path : String) : IO (Except ReadFailure String) := do
  try
    return .ok (← IO.FS.readFile path)
  catch
    | .noFileOrDirectory .. => return .error .missing
    | problem => return .error (.other (toString problem))

/-- Reads the files that an invocation may ask for, and answers from what was read. -/
def runOnDisk (invocation : Invocation) : IO UInt32 := do
  let paths := invocation.optionsFile.toList ++ invocation.files
  let contents ← paths.mapM fun path => do return (path, ← readFromDisk path)
  let read : FileReader := fun path => (contents.lookup path).getD (.error .missing)
  let outcome := run read invocation
  IO.print outcome.standardOutput
  IO.eprint outcome.errorOutput
  return outcome.exitCode.toUInt32

end Composer.CommandLine

def main (arguments : List String) : IO UInt32 :=
  match Composer.CommandLine.parseArguments arguments ⟨[], none, false, false⟩ with
  | none => do
      IO.eprintln Composer.CommandLine.usage
      return 2
  | some invocation => Composer.CommandLine.runOnDisk invocation
