/-
Why a snapshot could not be written.
-/
namespace GrammarExplorer

inductive FormatError
  /-- No format of this name is registered. -/
  | formatNotFound (name : String)
  /-- The format could not write the snapshot. -/
  | serialization (reason : String)
  deriving Repr, DecidableEq

def FormatError.message : FormatError → String
  | formatNotFound name => "Format '" ++ name ++ "' not found"
  | serialization reason => "Serialization error: " ++ reason

end GrammarExplorer
