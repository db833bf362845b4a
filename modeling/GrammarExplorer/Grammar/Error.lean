/-
Why a grammar could not be loaded.
-/
import GrammarExplorer.Files
import GrammarExplorer.Json.Decode
import GrammarExplorer.Json.Reader

namespace GrammarExplorer

/-- What is wrong with the shape of a document. -/
inductive Malformation
  | documentNotObject
  | missingAbstract
  | abstractNotObject
  | nameNotString
  | missingStart
  | startNotString
  | missingFunctions
  | functionsNotObject
  | badFunction (name : String) (cause : Json.DecodeError)
  | concretesNotObject
  | badConcrete (id : String) (cause : Json.DecodeError)
  /-- A symbol that refers to an argument does not say to which. -/
  | missingSlot (id : String) (sequence : Nat)
  deriving Repr, DecidableEq

def Malformation.message : Malformation → String
  | documentNotObject => "document is not a JSON object"
  | missingAbstract => "missing 'abstract'"
  | abstractNotObject => "'abstract' is not an object"
  | nameNotString => "'abstract.name' is not a string"
  | missingStart => "missing 'abstract.startcat'"
  | startNotString => "'abstract.startcat' is not a string"
  | missingFunctions => "missing 'abstract.funs'"
  | functionsNotObject => "'abstract.funs' is not an object"
  | badFunction name cause => "'abstract.funs." ++ name ++ "': " ++ cause.message
  | concretesNotObject => "'concretes' is not an object"
  | badConcrete id cause => "'concretes." ++ id ++ "': " ++ cause.message
  | missingSlot id sequence =>
    "'concretes." ++ id ++ ".sequences[" ++ toString sequence
      ++ "]': SymCat without a slot index"

inductive GrammarError
  /-- The document does not have the shape of a grammar. -/
  | malformed (cause : Malformation)
  /-- The text is no JSON. -/
  | json (cause : Json.SyntaxError)
  /-- The file could not be read. -/
  | unreadable (path : String) (cause : ReadFault)
  deriving Repr, DecidableEq

namespace GrammarError

def message : GrammarError → String
  | malformed cause => "Malformed grammar: " ++ cause.message
  | json cause => "Malformed grammar: invalid JSON: " ++ cause.message
  | unreadable path cause => "Cannot read grammar file " ++ path ++ ": " ++ cause.message

/-- Whether the document itself is at fault. -/
def isMalformed : GrammarError → Bool
  | malformed _ | json _ => true
  | unreadable _ _ => false

end GrammarError

end GrammarExplorer
