/-
Selections that find the chosen function by the index of the names. There is no
answer where the index points outside the table of functions.
-/
import GrammarExplorer.Grammar.NameIndex
import GrammarExplorer.Session.Basic

namespace GrammarExplorer.Session

variable (s : Session)

/-- The label a chosen function gives in the present mode, and what was found
while making it. -/
def labelByIndex (chosen : String) : Option (Except SelectError (String × List Diagnostic)) :=
  match s.mode with
  | .abstractNames => some (.ok (chosen, []))
  | .concrete id =>
    match s.grammar.concrete? id with
    | none => some (.error (.noConcreteGrammar id))
    | some g => do
      match ← g.functionByIndex chosen with
      | some f =>
        let wording := Linearization.wording f g.sequences (s.argumentsOf chosen)
        return .ok (Linearization.label wording.texts s.separator, wording.diagnostics)
      | none => return .error (.noSuchFunction chosen g.languageTag)

/-- Relabels a node with the chosen function. A refusal changes nothing. -/
def selectByIndex (id : Nat) (chosen : String) : Option (Except SelectError Session) :=
  if s.tree.contains id then do
    match ← s.labelByIndex chosen with
    | .error e => return .error e
    | .ok (label, found) =>
      return .ok { s with
        tree := s.tree.modify id (·.relabel label)
        diagnostics := Diagnostic.noteAll s.diagnostics found }
  else some (.error (.unknownNode id))

end GrammarExplorer.Session
