/-
The operations of a session that can be refused, carried out on a session in
place: change by change, each with its effect at once. What has been changed by
the time of a refusal stays changed.
-/
import GrammarExplorer.Session.Operation

namespace GrammarExplorer

/-- A procedure on a session that is changed in place, and that may stop with
a refusal. -/
abbrev InPlace (α : Type) := EStateM SelectError Session α

namespace InPlace

/-- Notes a diagnostic. -/
def note (d : Diagnostic) : InPlace Unit :=
  modify fun s => { s with diagnostics := Diagnostic.note s.diagnostics d }

/-- Changes a node. -/
def change (id : Nat) (f : Node → Node) : InPlace Unit :=
  modify fun s => { s with tree := s.tree.modify id f }

/-- Keeps the label of a node, if none is kept yet, and then puts another one
in its place. -/
def relabel (id : Nat) (label : String) : InPlace Unit := do
  match (← get).tree.node? id with
  | none => throw (.unknownNode id)
  | some n =>
    if n.firstLabel.isNone then
      change id fun n => { n with firstLabel := some n.label }
    change id fun n => { n with label }

/-- Relabels a node with the chosen function. -/
def select (id : Nat) (chosen : String) : InPlace Unit := do
  let s ← get
  if s.tree.contains id then
    match s.labelFor chosen with
    | .error cause => throw cause
    | .ok (label, found) =>
      found.forM note
      relabel id label
  else throw (.unknownNode id)

/-- Changes the mode. -/
def setMode (mode : DisplayMode) : InPlace Unit := do
  match mode with
  | .abstractNames => pure ()
  | .concrete id =>
    if ((← get).grammar.concrete? id).isNone then throw (.noConcreteGrammar id)
  modify fun s => { s with mode }

/-- Looks up the mode for a language and changes to it. -/
def setLanguage (language : Option String) : InPlace Unit := do
  match language with
  | none => setMode .abstractNames
  | some wanted =>
    match (← get).grammar.named? wanted with
    | none => throw (.noConcreteGrammar wanted)
    | some g => setMode (.concrete g.id)

end InPlace

/-- What a procedure in place comes to that does the same as an operation: if
it is refused, it leaves the session as it was. -/
def Session.inPlace (s : Session) :
    Except SelectError Session → EStateM.Result SelectError Session Unit
  | .ok next => .ok () next
  | .error cause => .error cause s

end GrammarExplorer
