/-
The explorer holds the session at work. Loading a document puts a new
session in its place, and only if the document can be loaded.
-/
import GrammarExplorer.Grammar.Source
import GrammarExplorer.Session.Operation

namespace GrammarExplorer

structure Explorer where
  session : Option Session

namespace Explorer

/-- No session yet. -/
def empty : Explorer := ⟨none⟩

variable (e : Explorer)

/-- Loads a document. The answer is the new session or why there is none. -/
def load (files : Files) (source : Source) : Explorer × Except GrammarError Session :=
  match source.grammar files with
  | .error cause => (e, .error cause)
  | .ok g => let s := Session.ofGrammar g; (⟨some s⟩, .ok s)

def loadLog (files : Files) (source : Source) : List Log.Record :=
  source.log files ++
    match source.grammar files with
    | .error _ => []
    | .ok g => Session.openingLog g g.startCategory

/-- Does an operation on the session, if there is one. -/
def apply (o : Session.Operation) : Explorer × Option Session.Answer :=
  match e.session with
  | none => (e, none)
  | some s => let (next, answer) := s.apply o; (⟨some next⟩, some answer)

end Explorer

end GrammarExplorer
