import StackScript.CommandLine

/-!
# The Program

Carries out an invocation: reads the file that the arguments name, or the input if they name
none, and writes what the invocation yields.
-/

namespace StackScript

/-- The bytes of a file, if it can be read. -/
def readFile (name : String) : IO (Option ByteArray) := do
  try
    return some (← IO.FS.readBinFile name)
  catch _ =>
    return none

/-- Carries out what an invocation yields. -/
def Effect.carryOut (e : Effect) : IO UInt32 := do
  IO.print e.output
  IO.eprint e.errors
  if let some (target, bytes) := e.written then
    IO.FS.writeBinFile target ⟨bytes.toArray⟩
  return UInt32.ofNat e.exitCode

end StackScript

open StackScript in
/-- Runs the program with its arguments. -/
def main (arguments : List String) : IO UInt32 := do
  let options := Options.ofArguments arguments
  match options.file with
  | some file =>
    let bytes? ← readFile file
    (options.perform (fun _ => bytes?) "").carryOut
  | none =>
    let input ← (← IO.getStdin).readToEnd
    (options.perform (fun _ => none) input).carryOut
