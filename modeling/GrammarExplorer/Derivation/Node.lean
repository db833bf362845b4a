/-
The nodes of a derivation tree. Categories and functions take turns on every
path: below a category stand the functions that produce it, below a function
the categories of its arguments. A node is referred to by its place in the
table of nodes of its tree.
-/
namespace GrammarExplorer

/-- A node as messages name it. -/
def nodeText (id : Nat) : String := "#" ++ toString id

inductive NodeKind
  /-- A place where a choice is made. -/
  | category
  /-- One of the ways to make it. -/
  | function
  deriving Repr, DecidableEq

def NodeKind.name : NodeKind → String
  | category => "Category"
  | function => "Function"

/-- The sign a node of this kind is drawn with. -/
def NodeKind.icon : NodeKind → String
  | category => "◇"
  | function => "ƒ"

structure Node where
  /-- The name of the category or function; it never changes. -/
  name : String
  /-- The label, which an edit replaces. -/
  label : String
  kind : NodeKind
  children : List Nat
  parent : Option Nat
  /-- The label before the first edit, once there was one. -/
  firstLabel : Option String
  /-- An argument category that stands elsewhere below the same category
  node, and is not expanded again. -/
  shared : Bool
  deriving Repr, DecidableEq

namespace Node

/-- A node that was never edited and has no children yet. -/
def fresh (name : String) (kind : NodeKind) (parent : Option Nat) (shared : Bool) : Node :=
  ⟨name, name, kind, [], parent, none, shared⟩

def addChild (n : Node) (child : Nat) : Node := { n with children := n.children ++ [child] }

def isEdited (n : Node) : Bool := n.firstLabel.isSome

def hasChildren (n : Node) : Bool := !n.children.isEmpty

/-- Gives the node a new label and remembers the one before the first
edit. -/
def relabel (n : Node) (label : String) : Node :=
  { n with label, firstLabel := some (n.firstLabel.getD n.label) }

/-- Gives the node back the label from before the first edit. -/
def restore (n : Node) : Node := { n with label := n.firstLabel.getD n.label }

end Node

end GrammarExplorer
