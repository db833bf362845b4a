/-
The program: reads the files that a command looks for, and writes what the
command answers.
-/
import GrammarExplorer.CommandLine.Run

namespace GrammarExplorer.CommandLine

/-- The entry for a path: its bytes, or a place below it if it is a
directory. -/
def readEntry (path : String) : IO (List (String × ByteArray)) := do
  try
    return [(path, ← IO.FS.readBinFile path)]
  catch
    | .inappropriateType .. => return [(path ++ "/*", .empty)]
    | _ => return []

def readFiles (arguments : List String) : IO Files := do
  match read arguments with
  | .error _ => return ⟨[]⟩
  | .ok i => return ⟨(← (consulted i).mapM readEntry).flatten⟩

end GrammarExplorer.CommandLine

def main (arguments : List String) : IO UInt32 := do
  let files ← GrammarExplorer.CommandLine.readFiles arguments
  let ending := GrammarExplorer.CommandLine.respond files arguments
  (← IO.getStdout).putStr ending.output
  (← IO.getStderr).putStr ending.errors
  return UInt32.ofNat ending.code
