/-
The operations of a session as data, so that one can speak of a whole run of
them.
-/
import GrammarExplorer.Session.Basic

namespace GrammarExplorer.Session

inductive Operation
  | select (id : Nat) (chosen : String)
  | reset (id : Nat)
  | resetAll
  | setMode (mode : DisplayMode)
  | setLanguage (language : Option String)
  | setSeparator (separator : String)
  deriving Repr, DecidableEq

/-- What an operation answers. -/
inductive Answer
  | done
  | refused (cause : SelectError)
  | restored (anything : Bool)
  | count (nodes : Nat)
  deriving Repr, DecidableEq

/-- The session after an attempt; a refusal leaves it as it was. -/
def attempt (s : Session) : Except SelectError Session → Session × Answer
  | .ok next => (next, .done)
  | .error cause => (s, .refused cause)

/-- Does one operation. -/
def apply (s : Session) : Operation → Session × Answer
  | .select id chosen => s.attempt (s.select id chosen)
  | .reset id => let (next, anything) := s.reset id; (next, .restored anything)
  | .resetAll => let (next, nodes) := s.resetAll; (next, .count nodes)
  | .setMode mode => s.attempt (s.setMode mode)
  | .setLanguage language => s.attempt (s.setLanguage language)
  | .setSeparator separator => (s.setSeparator separator, .done)

/-- What an operation has to say. -/
def operationLog (s : Session) : Operation → List Log.Record
  | .select id chosen => s.selectLog id chosen
  | .reset id => s.resetLog id
  | .resetAll => s.resetAllLog
  | .setMode mode => s.setModeLog mode
  | .setLanguage language => s.setLanguageLog language
  | .setSeparator _ => []

/-- Does operations one after the other. -/
def run (s : Session) (operations : List Operation) : Session :=
  operations.foldl (fun s o => (s.apply o).1) s

end GrammarExplorer.Session
