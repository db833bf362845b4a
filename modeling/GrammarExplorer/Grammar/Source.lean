/-
Where a grammar document comes from: a text, a file, or a JSON value.
-/
import GrammarExplorer.Grammar.Load

namespace GrammarExplorer

inductive Source
  | text (text : String)
  | file (path : String)
  | value (document : Json)

namespace Source

/-- The grammar of the document. -/
def grammar (files : Files) : Source → Except GrammarError Grammar
  | text t => Grammar.ofText t
  | file path => Grammar.ofFile files path
  | value document => Grammar.ofJson document

/-- What loading a text has to say. -/
def textLog (text : String) : List Log.Record :=
  match Json.read text with
  | .error _ => []
  | .ok document => Document.log document

/-- What loading the document has to say. -/
def log (files : Files) : Source → List Log.Record
  | text t => textLog t
  | file path =>
    match files.readText path with
    | .error _ => []
    | .ok t => textLog t
  | value document => Document.log document

end Source

end GrammarExplorer
