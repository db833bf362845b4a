/-
The tree as an outline: one line for each node, unless a node above it is
folded. The outline is in the order of the walk through the tree.
-/
import GrammarExplorer.Snapshot

namespace GrammarExplorer

/-- Which nodes differ from how an outline starts out: nodes of the tree
unfolded, all other ids folded. -/
structure Folds where
  flipped : List Nat
  deriving Repr, DecidableEq

namespace Folds

/-- Every node of the tree is unfolded. -/
def allOpen : Folds := ⟨[]⟩

/-- Folds a node that is unfolded, and unfolds one that is folded. -/
def flip (f : Folds) (id : Nat) : Folds :=
  if f.flipped.contains id then ⟨f.flipped.filter (· != id)⟩ else ⟨id :: f.flipped⟩

/-- Whether what is below a node is shown. -/
def isOpen (f : Folds) (t : DerivationTree) (id : Nat) : Bool :=
  t.contains id != f.flipped.contains id

end Folds

structure OutlineLine where
  id : Nat
  depth : Nat
  label : String
  isOpen : Bool
  hasChildren : Bool
  kind : NodeKind
  edited : Bool
  deriving Repr, DecidableEq

namespace Outline

/-- The line of a node. -/
def lineOf (isOpen : Nat → Bool) (depth : Nat) (e : SnapshotEntry) : OutlineLine :=
  ⟨e.id, depth, e.label, isOpen e.id, e.hasChildren, e.kind, e.edited⟩

mutual

/-- The lines of a node and of what is shown below it. -/
def linesAt (isOpen : Nat → Bool) (depth : Nat) : Snapshot → List OutlineLine
  | .node e children =>
    lineOf isOpen depth e :: if isOpen e.id then linesOf isOpen (depth + 1) children else []

/-- The lines of siblings, one after the other. -/
def linesOf (isOpen : Nat → Bool) (depth : Nat) : List Snapshot → List OutlineLine
  | [] => []
  | s :: rest => linesAt isOpen depth s ++ linesOf isOpen depth rest

end

/-- All lines of a tree. -/
def lines (folds : Folds) (t : DerivationTree) : List OutlineLine :=
  linesAt (folds.isOpen t) 0 (.ofTree t)

/-- Where a node is in an outline. -/
def indexOf? (lines : List OutlineLine) (id : Nat) : Option Nat :=
  lines.findIdx? (·.id == id)

/-- The node in the line below that of a given node. -/
def next? (lines : List OutlineLine) (id : Nat) : Option Nat := do
  let i ← indexOf? lines id
  (lines[i + 1]?).map (·.id)

/-- The node in the line above that of a given node. -/
def previous? (lines : List OutlineLine) (id : Nat) : Option Nat := do
  let i ← indexOf? lines id
  if i = 0 then none else (lines[i - 1]?).map (·.id)

end Outline

end GrammarExplorer
