/-
Snapshots: what a derivation tree looks like at one moment, as a tree that
stands by itself. Whatever shows or writes a tree works on a snapshot.
-/
import GrammarExplorer.Derivation.Tree
import GrammarExplorer.Rose

namespace GrammarExplorer

/-- What a snapshot shows of a node. -/
structure SnapshotEntry where
  id : Nat
  label : String
  name : String
  kind : NodeKind
  edited : Bool
  hasChildren : Bool
  deriving Repr, DecidableEq

abbrev Snapshot := Rose SnapshotEntry

namespace Snapshot

/-- The entry for a node. -/
def entryOf (id : Nat) (n : Node) : SnapshotEntry :=
  ⟨id, n.label, n.name, n.kind, n.isEdited, n.hasChildren⟩

/-- The entry for a place outside the tree. -/
def emptyEntry (id : Nat) : SnapshotEntry := ⟨id, "", "", .category, false, false⟩

/-- The part of a tree below one of its nodes. -/
def ofNode (t : DerivationTree) (id : Nat) : Snapshot :=
  match t.node? id with
  | none => .node (emptyEntry id) []
  | some n =>
    .node (entryOf id n) <| (t.children id).foldr
      (fun child rest => if _h : t.isProper id child then ofNode t child :: rest else rest) []
termination_by t.size - id
decreasing_by
  simp only [DerivationTree.isProper, Bool.and_eq_true, decide_eq_true_eq] at _h
  omega

/-- The whole tree. -/
def ofTree (t : DerivationTree) : Snapshot := ofNode t DerivationTree.root

/-- The number of nodes. -/
def count (s : Snapshot) : Nat := s.size

end Snapshot

end GrammarExplorer
