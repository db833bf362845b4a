/-
Files by name, as a value. Whatever reads files is given the contents of
those it may ask for; a directory is only there as the place of its files.
-/
namespace GrammarExplorer

/-- Files and their bytes. -/
structure Files where
  entries : List (String × ByteArray)

/-- Why a file could not be read as text. -/
inductive ReadFault
  | notFound
  | isDirectory
  | notDirectory
  | notText
  deriving Repr, DecidableEq

def ReadFault.message : ReadFault → String
  | notFound => "No such file or directory (os error 2)"
  | isDirectory => "Is a directory (os error 21)"
  | notDirectory => "Not a directory (os error 20)"
  | notText => "stream did not contain valid UTF-8"

namespace Files

/-- What stands between the slashes of a path. -/
def parts (path : String) : List String := (path.toList.splitOn '/').map String.ofList

/-- The steps of a path, without those that stay in place. A path from the
root begins with a step of its own. -/
def steps (path : String) : List String :=
  let steps := (parts path).filter fun s => s != "" && s != "."
  if path.startsWith "/" then "/" :: steps else steps

/-- Whether the path ends in a step that stays in place, as only one to a
directory may. -/
def endsInPlace (path : String) : Bool :=
  match (parts path).getLast? with
  | some last => last == "" || last == "."
  | none => false

/-- The bytes of the file that a path leads to, if it leads to one. -/
def bytes? (files : Files) (path : String) : Option ByteArray :=
  if endsInPlace path then none
  else (files.entries.find? fun e => steps e.1 == steps path).map (·.2)

/-- Whether the path leads to a directory: it is the place the files are
in, the root, or the beginning of the path of a file. -/
def isDirectory (files : Files) (path : String) : Bool :=
  path != "" &&
    (steps path == [] || steps path == ["/"] || files.entries.any fun e =>
      (steps path).isPrefixOf (steps e.1) && steps e.1 != steps path)

/-- Whether the path goes on behind a file. -/
def goesThroughFile (files : Files) (path : String) : Bool :=
  files.entries.any fun e =>
    (steps e.1).isPrefixOf (steps path) && (steps e.1 != steps path || endsInPlace path)

/-- The text of the file that a path leads to. -/
def readText (files : Files) (path : String) : Except ReadFault String :=
  match files.bytes? path with
  | some bytes =>
    match String.fromUTF8? bytes with
    | some text => .ok text
    | none => .error .notText
  | none =>
    if files.isDirectory path then .error .isDirectory
    else if files.goesThroughFile path then .error .notDirectory
    else .error .notFound

end Files

end GrammarExplorer
