import MathTyping.CommandLine

/-!
# The program

Reads the files that the command line names and writes the result.
-/

namespace MathTyping

/-- Read a file, or nothing if it cannot be read. -/
def readFile? (path : Text) : IO (Option Text) := do
  try
    let content ← IO.FS.readFile (String.ofList path)
    pure (some content.toList)
  catch _ => pure none

end MathTyping

/-- Run the command line. -/
def main (args : List String) : IO UInt32 := do
  let args := args.map (·.toList)
  let contents ← (MathTyping.CommandLine.files args).mapM fun path => do
    pure (path, ← MathTyping.readFile? path)
  let read := fun path => (contents.find? (·.1 == path)).bind (·.2)
  let result := MathTyping.CommandLine.run read args
  IO.print (String.ofList result.output)
  pure result.status.toUInt32
