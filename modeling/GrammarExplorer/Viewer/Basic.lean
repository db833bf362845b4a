/-
The viewer: a session with an outline of its tree, a cursor in the outline,
and a menu of alternatives for one node. Folds, cursor and menu are the
viewer's own; whatever is edited goes through the session.
-/
import GrammarExplorer.Session.Operation
import GrammarExplorer.Viewer.Outline

namespace GrammarExplorer

/-- The pane that the keyboard goes to. -/
inductive Focus
  | tree
  | alternatives
  deriving Repr, DecidableEq

/-- The alternatives for one node. -/
structure Menu where
  node : Nat
  options : List String
  deriving Repr, DecidableEq

structure Viewer where
  session : Session
  /-- The node under the cursor. -/
  selected : Nat
  folds : Folds
  menu : Option Menu
  /-- The option of the menu under its own cursor. -/
  highlighted : Nat
  /-- The last message; empty if there was none. -/
  status : String
  focus : Focus
  quitting : Bool

namespace Viewer

/-- The cursor on the root, nothing folded, no menu. -/
def ofSession (session : Session) : Viewer :=
  ⟨session, DerivationTree.root, .allOpen, none, 0, "", .tree, false⟩

variable (v : Viewer)

/-- The lines that are shown of the tree, as far as there is room. -/
def outline : List OutlineLine := Outline.lines v.folds v.session.tree

def isOpen (id : Nat) : Bool := v.folds.isOpen v.session.tree id

/-- The node in the line below. -/
def next? (id : Nat) : Option Nat := Outline.next? v.outline id

/-- The node in the line above. -/
def previous? (id : Nat) : Option Nat := Outline.previous? v.outline id

/-- What the title says of the mode: the grammar's id, and its language if
that is something else. -/
def modeText : String :=
  match v.session.mode with
  | .abstractNames => "abstract"
  | .concrete id =>
    match v.session.grammar.concrete? id with
    | some g => if g.languageTag == id then id else id ++ " (" ++ g.languageTag ++ ")"
    | none => id

/-- Puts a message on the status line. -/
def say (status : String) : Viewer := { v with status }

/-- Moves the cursor, if the node is in the tree. -/
def moveTo (id : Nat) : Viewer :=
  if v.session.tree.contains id then { v with selected := id } else v

/-- Folds or unfolds a node. -/
def flip (id : Nat) : Viewer := { v with folds := v.folds.flip id }

/-- Shows the alternatives for a node in the menu, if it has any. -/
def offer (id : Nat) : Viewer :=
  match v.session.alternatives id with
  | [] => { v with menu := none, status := "No alternatives for this node" }
  | options => { v with menu := some ⟨id, options⟩ }

/-- Takes the menu away. -/
def dismiss : Viewer := { v with menu := none }

/-- Relabels a node with the chosen function and takes the menu away. -/
def choose (id : Nat) (chosen : String) : Viewer :=
  match v.session.select id chosen with
  | .ok session => { v with session, menu := none, status := "Selected " ++ chosen }
  | .error cause => { v with menu := none, status := cause.message }

/-- Gives a node back its label from before the first edit. -/
def restore (id : Nat) : Viewer :=
  let (session, anything) := v.session.reset id
  { v with session, status := if anything then "Restored original label" else "Node was never edited" }

/-- Gives all edited nodes back their labels. -/
def restoreAll : Viewer :=
  let (session, count) := v.session.resetAll
  { v with session, status := "Restored " ++ toString count ++ " node(s)" }

/-- The language after the present one: those of the concrete grammars in
their order, after the last of them none. -/
def nextLanguage : Option String :=
  let ids := v.session.grammar.concreteIds
  match v.session.mode with
  | .abstractNames => ids.head?
  | .concrete id => if ids.contains id then ids[ids.idxOf id + 1]? else none

/-- Goes on to the next language and takes the menu away. -/
def cycleLanguage : Viewer :=
  match v.session.setLanguage v.nextLanguage with
  | .ok session =>
    let next := { v with session, menu := none }
    next.say ("Display: " ++ next.modeText)
  | .error cause => v.say cause.message

end Viewer

end GrammarExplorer
