import Asm65.CommandLine

/-!
# The program

Reads the files that the command line names, prints the listing, and reports
a failure on the error stream.
-/

namespace Asm65

/-- The contents of a file, if it can be read as text. -/
def readText (path : String) : IO (Option String) := do
  try
    return some (← IO.FS.readFile path)
  catch _ =>
    return none

end Asm65

/-- Assembles the file that the command line names. -/
def main (arguments : List String) : IO UInt32 := do
  let contents ← (Asm65.CommandLine.paths arguments).mapM fun path => do
    return (path, ← Asm65.readText path)
  let files := fun path => (contents.lookup path).join
  let report := Asm65.CommandLine.run files arguments
  IO.print report.output
  match report.failure? with
  | some failure => IO.eprintln failure.message
  | none => pure ()
  return UInt32.ofNat report.status
