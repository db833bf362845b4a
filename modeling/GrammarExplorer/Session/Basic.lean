/-
An editing session: a grammar, the derivation tree of one category, and the
language in which the user looks at it.

A node is relabelled with the name of a function or, in a language, with the
function's linearization; its label from before the first edit is kept and
can be had back. An edit changes one node and never the shape of the tree.

Whatever an operation has to say is given by a function of its own, which
takes the session as it was before the operation.
-/
import GrammarExplorer.Derivation.Builder
import GrammarExplorer.Grammar.Basic
import GrammarExplorer.Linearization
import GrammarExplorer.Snapshot
import GrammarExplorer.Text.Quoted

namespace GrammarExplorer

/-- Where alternatives and labels come from. -/
inductive DisplayMode
  /-- From the names of the abstract functions. -/
  | abstractNames
  /-- From the concrete grammar with this id. -/
  | concrete (id : String)
  deriving Repr, DecidableEq

/-- The mode as the log shows it. -/
def DisplayMode.logText : DisplayMode → String
  | abstractNames => "Abstract"
  | concrete id => "Concrete(" ++ Text.quoted id ++ ")"

/-- Why an operation was refused. -/
inductive SelectError
  | noSuchFunction (function language : String)
  | unknownNode (id : Nat)
  | noConcreteGrammar (wanted : String)
  deriving Repr, DecidableEq

def SelectError.message : SelectError → String
  | noSuchFunction function language =>
    "No function '" ++ function ++ "' in concrete grammar '" ++ language ++ "'"
  | unknownNode id => "Unknown node " ++ nodeText id
  | noConcreteGrammar wanted => "No concrete grammar '" ++ wanted ++ "'"

structure Session where
  grammar : Grammar
  tree : DerivationTree
  mode : DisplayMode
  /-- Stands between the linearizations of one function. -/
  separator : String
  /-- What was remarked on, from loading the grammar on. -/
  diagnostics : List Diagnostic

namespace Session

def defaultSeparator : String := " | "

/-- A session on the tree of a given category. -/
def ofCategory (g : Grammar) (category : String) : Session :=
  let report := DerivationTree.build g.abstractGrammar category
  ⟨g, report.tree, .abstractNames, defaultSeparator, g.diagnostics ++ report.diagnostics⟩

/-- A session on the tree of the grammar's start category. -/
def ofGrammar (g : Grammar) : Session := ofCategory g g.startCategory

def openingLog (g : Grammar) (category : String) : List Log.Record :=
  DerivationTree.buildLog g.abstractGrammar category

variable (s : Session)

/-! ## Language -/

def setSeparator (separator : String) : Session := { s with separator }

/-- Whether there is a grammar for the mode. -/
def admits : DisplayMode → Bool
  | .abstractNames => true
  | .concrete id => (s.grammar.concrete? id).isSome

/-- Changes the mode. Labels stay as they are. -/
def setMode (mode : DisplayMode) : Except SelectError Session :=
  match mode with
  | .abstractNames => .ok { s with mode }
  | .concrete id =>
    if s.admits mode then .ok { s with mode } else .error (.noConcreteGrammar id)

def setModeLog (mode : DisplayMode) : List Log.Record :=
  if s.admits mode then
    [⟨.debug, Log.sessionTarget, "display mode: " ++ mode.logText⟩]
  else []

/-- The mode for a language, named by the id of a grammar or by its tag;
without a language, that of the abstract names. -/
def modeFor : Option String → Except SelectError DisplayMode
  | none => .ok .abstractNames
  | some wanted =>
    match s.grammar.named? wanted with
    | some g => .ok (.concrete g.id)
    | none => .error (.noConcreteGrammar wanted)

def setLanguage (language : Option String) : Except SelectError Session :=
  (s.modeFor language).bind s.setMode

def setLanguageLog (language : Option String) : List Log.Record :=
  match s.modeFor language with
  | .ok mode => s.setModeLog mode
  | .error _ => []

/-! ## Alternatives -/

/-- The functions that can realize a category in the present mode. -/
def functionsFor (category : String) : List String :=
  match s.mode with
  | .abstractNames => s.grammar.abstractGrammar.functionsFor category
  | .concrete id =>
    match s.grammar.concrete? id with
    | some g => g.functionsFor category
    | none => []

/-- The category of a node, if it is a category node of the tree. -/
def categoryAt? (id : Nat) : Option String :=
  match s.tree.node? id with
  | some n => if n.kind = .category then some n.name else none
  | none => none

/-- What a node can be relabelled with. Only category nodes have a
choice. -/
def alternatives (id : Nat) : List String :=
  match s.categoryAt? id with
  | some category => s.functionsFor category
  | none => []

def alternativesLog (id : Nat) : List Log.Record :=
  match s.categoryAt? id, s.mode with
  | some category, .concrete grammarId =>
    match s.grammar.concrete? grammarId with
    | some g => g.functionsForLog category
    | none => []
  | _, _ => []

/-! ## Edits -/

/-- The argument categories of a function; none for one that the abstract
grammar lacks. -/
def argumentsOf (function : String) : List String :=
  ((s.grammar.abstractGrammar.function? function).map (·.arguments)).getD []

/-- The label a chosen function gives in the present mode, and what was
found while making it. -/
def labelFor (chosen : String) : Except SelectError (String × List Diagnostic) :=
  match s.mode with
  | .abstractNames => .ok (chosen, [])
  | .concrete id =>
    match s.grammar.concrete? id with
    | none => .error (.noConcreteGrammar id)
    | some g =>
      match Linearization.wordingOf? g chosen (s.argumentsOf chosen) with
      | some wording =>
        .ok (Linearization.label wording.texts s.separator, wording.diagnostics)
      | none => .error (.noSuchFunction chosen g.languageTag)

def labelForLog (chosen : String) : List Log.Record :=
  match s.mode with
  | .abstractNames => []
  | .concrete id =>
    match s.grammar.concrete? id with
    | none => []
    | some g =>
      if (g.function? chosen).isSome then
        Linearization.wordingOfLog g chosen (s.argumentsOf chosen)
      else
        [⟨.warn, Log.sessionTarget,
          "function '" ++ chosen ++ "' not found in concrete grammar '" ++ id ++ "'"⟩]

/-- Relabels a node with the chosen function. A refusal changes nothing. -/
def select (id : Nat) (chosen : String) : Except SelectError Session :=
  if s.tree.contains id then
    match s.labelFor chosen with
    | .error e => .error e
    | .ok (label, found) =>
      .ok { s with
        tree := s.tree.modify id (·.relabel label)
        diagnostics := Diagnostic.noteAll s.diagnostics found }
  else .error (.unknownNode id)

def selectLog (id : Nat) (chosen : String) : List Log.Record :=
  match s.tree.node? id with
  | none => []
  | some n =>
    s.labelForLog chosen ++
      match s.labelFor chosen with
      | .error _ => []
      | .ok (label, _) =>
        [⟨.debug, Log.sessionTarget,
          "select " ++ nodeText id ++ " '" ++ n.label ++ "' -> '" ++ label ++ "'"⟩]

/-- Whether a node has a label to go back to. -/
def canReset (id : Nat) : Bool := ((s.tree.node? id).map (·.isEdited)).getD false

/-- Gives a node back the label from before its first edit, which stays
remembered. The answer says whether there was one. -/
def reset (id : Nat) : Session × Bool :=
  if s.canReset id then ({ s with tree := s.tree.modify id (·.restore) }, true) else (s, false)

def resetLog (id : Nat) : List Log.Record :=
  match s.tree.node? id with
  | none => []
  | some n =>
    match n.firstLabel with
    | none => []
    | some first =>
      [⟨.debug, Log.sessionTarget,
        "reset " ++ nodeText id ++ " '" ++ n.label ++ "' -> '" ++ first ++ "'"⟩]

def editedNodes : List Nat := s.tree.editedNodes

/-- Resets every node that was edited; the answer is their number. -/
def resetAll : Session × Nat :=
  (s.editedNodes.foldl (fun s id => (s.reset id).1) s, s.editedNodes.length)

def resetAllLog : List Log.Record := s.editedNodes.flatMap s.resetLog

def snapshot : Snapshot := .ofTree s.tree

end Session

end GrammarExplorer
