/-
Derivation trees, as a table of nodes that refer to one another by their
places. The first node is the root; a child has a later place than its
parent.
-/
import GrammarExplorer.Derivation.Node

namespace GrammarExplorer

structure DerivationTree where
  nodes : Array Node
  deriving Repr, DecidableEq

namespace DerivationTree

def root : Nat := 0

variable (t : DerivationTree)

def size : Nat := t.nodes.size

def contains (id : Nat) : Bool := id < t.size

def node? (id : Nat) : Option Node := t.nodes[id]?

def children (id : Nat) : List Nat := ((t.node? id).map (·.children)).getD []

def parent? (id : Nat) : Option Nat := (t.node? id).bind (·.parent)

/-- Adds a node behind all others and lists it with its parent. -/
def push (n : Node) : DerivationTree :=
  let nodes := match n.parent with
    | some p => t.nodes.modify p (·.addChild t.size)
    | none => t.nodes
  ⟨nodes.push n⟩

/-- Changes one node. -/
def modify (id : Nat) (f : Node → Node) : DerivationTree := ⟨t.nodes.modify id f⟩

/-- A child that is really there, behind its parent. No built tree has any
other, and a walk that follows these alone comes to an end. -/
def isProper (id child : Nat) : Bool := id < child && child < t.size

/-- The walk from a node through all below it, a node before its children,
put in front of `after`. -/
def walkOnto (after : List Nat) (id : Nat) : List Nat :=
  id :: (t.children id).foldr
    (fun child rest => if _h : t.isProper id child then walkOnto rest child else rest) after
termination_by t.size - id
decreasing_by
  simp only [isProper, Bool.and_eq_true, decide_eq_true_eq] at _h
  omega

/-- The walk from a node through all below it, a node before its
children. -/
def walkFrom (id : Nat) : List Nat := t.walkOnto [] id

/-- The walk through the whole tree. -/
def walk : List Nat := t.walkFrom root

/-- The number of nodes on the longest path downwards from a node. -/
def depthFrom (id : Nat) : Nat :=
  1 + (t.children id).foldr
    (fun child deepest => if _h : t.isProper id child then max (depthFrom child) deepest else deepest)
    0
termination_by t.size - id
decreasing_by
  simp only [isProper, Bool.and_eq_true, decide_eq_true_eq] at _h
  omega

/-- The number of nodes on the longest path from the root. -/
def depth : Nat := if t.contains root then t.depthFrom root else 0

/-- The nodes that were edited, in the order of the walk. -/
def editedNodes : List Nat :=
  t.walk.filter fun id => ((t.node? id).map (·.isEdited)).getD false

end DerivationTree

end GrammarExplorer
