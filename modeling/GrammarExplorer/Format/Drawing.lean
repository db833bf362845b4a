/-
Snapshots drawn as text: one line for each node, set in below its parent and
tied to it by a connector.
-/
import GrammarExplorer.Format.Registry

namespace GrammarExplorer.Drawing

/-- Labels longer than this are cut. -/
def labelLimit : Nat := 60

/-- The text, cut after `limit` characters with an ellipsis. -/
def truncate (limit : Nat) (s : String) : String :=
  if limit < s.length then String.ofList (s.toList.take limit ++ ['…']) else s

/-- The mark behind the label of an edited node. -/
def editMark (edited : Bool) : String := if edited then " *" else ""

/-- The icon and the label of a node. -/
def nodeText (e : SnapshotEntry) : String :=
  e.kind.icon ++ " " ++ truncate labelLimit e.label ++ editMark e.edited

/-- What ties a node to its parent. -/
def connector (isLast : Bool) : String := if isLast then "└─ " else "├─ "

/-- What stands below a connector in the lines of the node's own
children. -/
def continuation (isLast : Bool) : String := if isLast then "  " else "│ "

/-- A node that is still to be drawn: what its line begins with, and whether
it is the last of its siblings. -/
structure Pending where
  node : Snapshot
  indent : String
  isLast : Bool

/-- The children of a node, whose lines begin with `indent`. -/
def pendingOf (indent : String) (children : List Snapshot) : List Pending :=
  children.zipIdx.map fun (child, i) => ⟨child, indent, i == children.length - 1⟩

/-- The line of a node below the root. -/
def Pending.line (p : Pending) : String :=
  p.indent ++ connector p.isLast ++ nodeText p.node.label ++ "\n"

/-- What is still to be drawn below a node once its own line is. -/
def Pending.below (p : Pending) : List Pending :=
  pendingOf (p.indent ++ continuation p.isLast) p.node.children

@[simp] theorem map_node_pendingOf (indent : String) (children : List Snapshot) :
    (pendingOf indent children).map (·.node) = children := by
  simp [pendingOf, Function.comp_def]

/-- Draws what is pending, the next node first, behind what is drawn. -/
def drawOnto (drawn : String) : List Pending → String
  | [] => drawn
  | p :: rest => drawOnto (drawn ++ p.line) (p.below ++ rest)
termination_by pending => Rose.sizeAll (pending.map (·.node))
decreasing_by
  rw [List.map_append, Rose.sizeAll_append, Pending.below, map_node_pendingOf, List.map_cons,
    Rose.sizeAll, Rose.size_eq]
  omega

/-- The drawing: the line of the root, then what is below it. -/
def draw (s : Snapshot) : String :=
  drawOnto (nodeText s.label ++ "\n") (pendingOf "" s.children)

def formatter : Formatter where
  name := "treeviz"
  description := "Indented one-line-per-node tree"
  serialize s := .ok (draw s)

end GrammarExplorer.Drawing
