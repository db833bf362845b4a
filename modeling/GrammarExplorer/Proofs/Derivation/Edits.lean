/-
Trees whose nodes were edited.

An edit reaches what a node shows and what it remembers, but none of the
links between nodes. So a tree with every node changed in place is walked as
before (`walk_mapNodes`). What an edited tree is compared with is the tree
with all edits forgotten (`original`); the tree with all labels put back
(`restored`) differs from it in nothing that a snapshot shows but the marks
on the edited nodes (`ofNode_restored`).
-/
import GrammarExplorer.Proofs.Derivation.Layout
import GrammarExplorer.Snapshot

namespace GrammarExplorer

namespace Node

/-- The node from before its first edit. -/
def original (n : Node) : Node :=
  { n with label := n.firstLabel.getD n.label, firstLabel := none }

theorem children_original (n : Node) : n.original.children = n.children := rfl

theorem children_restore (n : Node) : n.restore.children = n.children := rfl

theorem original_relabel (n : Node) (label : String) : (n.relabel label).original = n.original :=
  rfl

theorem original_restore (n : Node) : n.restore.original = n.original := by
  cases h : n.firstLabel <;> simp [restore, original, h]

theorem restore_restore (n : Node) : n.restore.restore = n.restore := by
  cases h : n.firstLabel <;> simp [restore, h]

/-- A node that was never edited is as it was. -/
theorem restore_of_not_edited {n : Node} (h : n.isEdited = false) : n.restore = n := by
  have hnone : n.firstLabel = none := by simpa [isEdited] using h
  cases n
  simp only at hnone
  subst hnone
  rfl

end Node

namespace DerivationTree

/-! ## Changes in place -/

theorem ext_node? {t u : DerivationTree} (h : ∀ id, t.node? id = u.node? id) : t = u := by
  cases t
  cases u
  congr 1
  exact Array.ext_getElem? h

/-- The tree with every node changed in place. -/
def mapNodes (t : DerivationTree) (f : Node → Node) : DerivationTree := ⟨t.nodes.map f⟩

@[simp] theorem size_mapNodes (t : DerivationTree) (f : Node → Node) :
    (t.mapNodes f).size = t.size := by simp [mapNodes, size]

@[simp] theorem node?_mapNodes (t : DerivationTree) (f : Node → Node) (id : Nat) :
    (t.mapNodes f).node? id = (t.node? id).map f := by simp [mapNodes, node?]

theorem isProper_mapNodes (t : DerivationTree) (f : Node → Node) (id child : Nat) :
    (t.mapNodes f).isProper id child = t.isProper id child := by
  rw [isProper, isProper, size_mapNodes]

@[simp] theorem node?_modify (t : DerivationTree) (id : Nat) (f : Node → Node) (i : Nat) :
    (t.modify id f).node? i = if id = i then (t.node? i).map f else t.node? i := by
  simp [modify, node?, Array.getElem?_modify]

theorem isSome_node? (t : DerivationTree) (id : Nat) : (t.node? id).isSome = t.contains id := by
  rw [Bool.eq_iff_iff, contains, decide_eq_true_iff, node?]
  simp [size]

theorem exists_node? {t : DerivationTree} {id : Nat} (hid : id < t.size) :
    ∃ n, t.node? id = some n := ⟨_, Array.getElem?_eq_getElem hid⟩

theorem children_eq {t : DerivationTree} {id : Nat} {n : Node} (hn : t.node? id = some n) :
    t.children id = n.children := by
  rw [children, hn]
  rfl

section mapNodes

variable {f : Node → Node} (hf : ∀ n, (f n).children = n.children)

include hf

theorem children_mapNodes (t : DerivationTree) (id : Nat) :
    (t.mapNodes f).children id = t.children id := by
  rw [children, children, node?_mapNodes]
  cases t.node? id with
  | none => rfl
  | some n => simp [hf]

theorem walkOnto_mapNodes (t : DerivationTree) (after : List Nat) (id : Nat) :
    (t.mapNodes f).walkOnto after id = t.walkOnto after id := by
  induction after, id using DerivationTree.walkOnto.induct t with
  | case1 after id ih =>
    rw [walkOnto, walkOnto.eq_1 t, children_mapNodes hf]
    congr 2
    funext child rest
    rw [isProper_mapNodes]
    by_cases hc : t.isProper id child = true
    · rw [dif_pos hc, dif_pos hc, ih child rest hc]
    · rw [dif_neg hc, dif_neg hc]

/-- A change in place leaves the walk as it is, if it leaves the links as
they are. -/
theorem walk_mapNodes (t : DerivationTree) : (t.mapNodes f).walk = t.walk :=
  walkOnto_mapNodes hf t [] root

end mapNodes

/-! ## Edits and what came before them -/

/-- The tree from before all edits. -/
def original (t : DerivationTree) : DerivationTree := t.mapNodes Node.original

/-- The tree with the label from before the first edit on every node. -/
def restored (t : DerivationTree) : DerivationTree := t.mapNodes Node.restore

/-- Whether a node of the tree was edited. -/
def edited (t : DerivationTree) (id : Nat) : Bool := ((t.node? id).map (·.isEdited)).getD false

theorem editedNodes_eq (t : DerivationTree) : t.editedNodes = t.walk.filter t.edited := rfl

theorem size_original (t : DerivationTree) : t.original.size = t.size := size_mapNodes ..

theorem size_restored (t : DerivationTree) : t.restored.size = t.size := size_mapNodes ..

theorem children_original (t : DerivationTree) (id : Nat) :
    t.original.children id = t.children id := children_mapNodes Node.children_original t id

theorem parent?_original (t : DerivationTree) (id : Nat) :
    t.original.parent? id = t.parent? id := by
  rw [parent?, parent?, original, node?_mapNodes]
  cases t.node? id <;> rfl

theorem walk_original (t : DerivationTree) : t.original.walk = t.walk :=
  walk_mapNodes Node.children_original t

theorem walk_restored (t : DerivationTree) : t.restored.walk = t.walk :=
  walk_mapNodes Node.children_restore t

theorem restored_restored (t : DerivationTree) : t.restored.restored = t.restored := by
  refine ext_node? fun id => ?_
  simp only [restored, node?_mapNodes, Option.map_map]
  congr 1
  funext n
  exact n.restore_restore

theorem edited_restored (t : DerivationTree) (id : Nat) : t.restored.edited id = t.edited id := by
  simp only [edited, restored, node?_mapNodes, Option.map_map]
  rfl

theorem editedNodes_restored (t : DerivationTree) : t.restored.editedNodes = t.editedNodes := by
  rw [editedNodes_eq, editedNodes_eq, walk_restored]
  congr 1
  funext id
  exact edited_restored t id

theorem lt_size_of_edited {t : DerivationTree} {id : Nat} (h : t.edited id = true) :
    id < t.size := by
  cases hn : t.node? id with
  | none => simp [edited, hn] at h
  | some n =>
    have hin : t.contains id = true := by rw [← isSome_node?, hn, Option.isSome_some]
    simpa [contains] using hin

/-- The walk has to pass every node for the edited ones to be found. -/
theorem mem_editedNodes {t : DerivationTree} (h : t.walk = List.range t.size) {id : Nat} :
    id ∈ t.editedNodes ↔ t.edited id = true := by
  rw [editedNodes_eq, h, List.mem_filter, List.mem_range]
  exact ⟨fun hmem => hmem.2, fun hedited => ⟨lt_size_of_edited hedited, hedited⟩⟩

/-- An edit of one node that keeps what it was before the first edit keeps
what the whole tree was. -/
theorem original_modify {f : Node → Node} (hf : ∀ n, (f n).original = n.original)
    (t : DerivationTree) (id : Nat) : (t.modify id f).original = t.original := by
  refine ext_node? fun i => ?_
  simp only [original, node?_mapNodes, node?_modify]
  split
  · simp only [Option.map_map]
    congr 1
    funext n
    exact hf n
  · rfl

theorem edited_relabel {t : DerivationTree} {id : Nat} (h : t.contains id = true) (label : String)
    (i : Nat) : (t.modify id (·.relabel label)).edited i = (t.edited i || decide (id = i)) := by
  obtain ⟨n, hn⟩ := Option.isSome_iff_exists.1 ((isSome_node? t id).trans h)
  simp only [edited, node?_modify]
  by_cases hi : id = i
  · subst hi
    simp [hn, Node.relabel, Node.isEdited]
  · simp [hi]

theorem edited_restore (t : DerivationTree) (id i : Nat) :
    (t.modify id (·.restore)).edited i = t.edited i := by
  simp only [edited, node?_modify]
  split
  · rw [Option.map_map]
    rfl
  · rfl

theorem map_restore_of_not_edited {t : DerivationTree} {id : Nat} (h : t.edited id = false) :
    (t.node? id).map Node.restore = t.node? id := by
  cases hn : t.node? id with
  | none => rfl
  | some n =>
    have hn' : n.isEdited = false := by simpa [edited, hn] using h
    rw [Option.map_some, Node.restore_of_not_edited hn']

/-- Putting back the label of a node that was never edited does nothing. -/
theorem restore_of_not_edited {t : DerivationTree} {id : Nat} (h : t.edited id = false) :
    t.modify id (·.restore) = t := by
  refine ext_node? fun i => ?_
  rw [node?_modify]
  split
  · next hi =>
    subst hi
    exact map_restore_of_not_edited h
  · rfl

/-- The tree with the labels put back on some of its nodes. -/
def restoreAt (t : DerivationTree) (ids : List Nat) : DerivationTree :=
  ids.foldl (fun t id => t.modify id (·.restore)) t

theorem original_restoreAt (t : DerivationTree) (ids : List Nat) :
    (t.restoreAt ids).original = t.original := by
  induction ids generalizing t with
  | nil => rfl
  | cons id ids ih => exact (ih _).trans (original_modify Node.original_restore t id)

theorem edited_restoreAt (t : DerivationTree) (ids : List Nat) (i : Nat) :
    (t.restoreAt ids).edited i = t.edited i := by
  induction ids generalizing t with
  | nil => rfl
  | cons id ids ih => exact (ih _).trans (edited_restore t id i)

theorem node?_restoreAt (t : DerivationTree) (ids : List Nat) (i : Nat) :
    (t.restoreAt ids).node? i = if i ∈ ids then (t.node? i).map Node.restore else t.node? i := by
  induction ids generalizing t with
  | nil => simp [restoreAt]
  | cons id ids ih =>
    have htail : (t.restoreAt (id :: ids)).node? i
        = ((t.modify id (·.restore)).restoreAt ids).node? i := rfl
    rw [htail, ih, node?_modify]
    by_cases hi : id = i
    · subst hi
      simp [Option.map_map, Function.comp_def, Node.restore_restore]
    · have hne : i ≠ id := fun h => hi h.symm
      simp [hi, hne]

/-- With the labels put back on every edited node, no other is left to put
back. -/
theorem restoreAt_editedNodes {t : DerivationTree} (h : t.walk = List.range t.size) :
    t.restoreAt t.editedNodes = t.restored := by
  refine ext_node? fun i => ?_
  rw [node?_restoreAt, restored, node?_mapNodes]
  split
  · rfl
  · next hi =>
    have hunedited : t.edited i = false := by
      rw [mem_editedNodes h] at hi
      exact Bool.eq_false_iff.2 hi
    rw [map_restore_of_not_edited hunedited]

/-! ## What edits keep -/

mutual

theorem map_original_rows (parent : Option Nat) (id : Nat) :
    ∀ r : Rose Role, (rows parent id r).map Node.original = rows parent id r
  | .node role cs => by
    rw [rows, List.map_cons, map_original_rowsBelow]
    rfl

theorem map_original_rowsBelow (parent id : Nat) :
    ∀ cs : List (Rose Role),
      (rowsBelow parent id cs).map Node.original = rowsBelow parent id cs
  | [] => rfl
  | c :: cs => by rw [rowsBelow, List.map_append, map_original_rows, map_original_rowsBelow]

end

theorem original_ofRose (r : Rose Role) : (ofRose r).original = ofRose r := by
  rw [original, mapNodes, ofRose, List.map_toArray, map_original_rows]

theorem edited_original (t : DerivationTree) (id : Nat) : t.original.edited id = false := by
  simp only [edited, original, node?_mapNodes, Option.map_map]
  cases t.node? id <;> rfl

/-- A tree that came from another by edits: forgetting them gives back the
other, and the edited nodes are the given ones. -/
structure EditedFrom (start : DerivationTree) (ids : List Nat) (t : DerivationTree) : Prop where
  original : t.original = start
  edited : ∀ id, t.edited id = true ↔ id ∈ ids

namespace EditedFrom

variable {start t : DerivationTree} {ids : List Nat}

theorem ofRose (r : Rose Role) : EditedFrom (ofRose r) [] (ofRose r) where
  original := original_ofRose r
  edited id := by
    rw [← original_ofRose, edited_original]
    simp

theorem relabel (h : EditedFrom start ids t) {id : Nat} (hin : t.contains id = true)
    (label : String) : EditedFrom start (ids ++ [id]) (t.modify id (·.relabel label)) where
  original := (original_modify (fun n => n.original_relabel label) t id).trans h.original
  edited i := by
    rw [edited_relabel hin, Bool.or_eq_true, decide_eq_true_eq, h.edited, List.mem_append,
      List.mem_singleton, eq_comm (a := id)]

theorem restoreAt (h : EditedFrom start ids t) (nodes : List Nat) :
    EditedFrom start ids (t.restoreAt nodes) where
  original := (original_restoreAt t nodes).trans h.original
  edited i := by rw [edited_restoreAt, h.edited]

theorem walk (h : EditedFrom start ids t) : t.walk = start.walk := by
  rw [← h.original, walk_original]

theorem size (h : EditedFrom start ids t) : t.size = start.size := by
  rw [← h.original, size_original]

theorem children (h : EditedFrom start ids t) (id : Nat) : t.children id = start.children id := by
  rw [← h.original, DerivationTree.original, children_mapNodes Node.children_original]

end EditedFrom

end DerivationTree

/-! ## Snapshots -/

namespace Snapshot

open DerivationTree

/-- A snapshot shows a node wherever the walk passes one. -/
theorem ids_ofNode (t : DerivationTree) (after : List Nat) (id : Nat) :
    (ofNode t id).preorder.map (·.id) ++ after = t.walkOnto after id := by
  induction after, id using DerivationTree.walkOnto.induct t with
  | case1 after id ih =>
    rw [ofNode, walkOnto]
    split
    · next hnone =>
      rw [children, hnone]
      rfl
    · next n hn =>
      rw [Rose.preorder_node, List.map_cons, List.cons_append]
      congr 1
      induction t.children id with
      | nil => rfl
      | cons child rest ihrest =>
        simp only [List.foldr_cons]
        split
        · next hc =>
          rw [List.flatMap_cons, List.map_append, List.append_assoc, ihrest]
          exact ih child _ hc
        · exact ihrest

theorem ids_ofTree (t : DerivationTree) : (ofTree t).preorder.map (·.id) = t.walk := by
  rw [walk, walkFrom, ← ids_ofNode, List.append_nil]
  rfl

/-- A snapshot of a part of a tree shows, below a node, the snapshots of what
hangs below it, whatever edits there were. -/
theorem ofNode_of_holds {t : DerivationTree} {parent : Option Nat} {id : Nat} {r : Rose Role}
    (h : t.original.Holds parent id r) : ∃ n, t.node? id = some n ∧
      ofNode t id
        = .node (entryOf id n) ((Rose.placed (id + 1) r.children).map fun p => ofNode t p.1) := by
  have hchildren : t.children id = (Rose.placed (id + 1) r.children).map (·.1) := by
    rw [← h.children, DerivationTree.original, children_mapNodes Node.children_original]
  have hproper : ∀ child ∈ t.children id, t.isProper id child = true := by
    intro child hc
    rw [← isProper_mapNodes t Node.original]
    refine h.isProper ?_
    rwa [h.children, ← hchildren]
  have hnode := h.node?
  rw [DerivationTree.original, node?_mapNodes, Option.map_eq_some_iff] at hnode
  obtain ⟨n, hn, -⟩ := hnode
  refine ⟨n, hn, ?_⟩
  rw [ofNode, hn]
  simp only
  rw [foldr_guarded hproper, hchildren, List.foldr_map, List.foldr_cons_eq_append, List.append_nil]

/-- The mark of an edit as a tree has it. -/
def mark (t : DerivationTree) (e : SnapshotEntry) : SnapshotEntry :=
  { e with edited := t.edited e.id }

/-- With all labels put back, a snapshot shows the tree from before all
edits, with a mark on each edited node. -/
theorem ofNode_restored (t : DerivationTree) (id : Nat) :
    ofNode t.restored id = (ofNode t.original id).map (mark t) := by
  induction id using Snapshot.ofNode.induct t with
  | case1 id hnone =>
    rw [ofNode, ofNode.eq_1 t.original, restored, original, node?_mapNodes, node?_mapNodes, hnone]
    simp [Rose.map_node, mark, emptyEntry, edited, hnone]
  | case2 id n hn ih =>
    have hentry : entryOf id n.restore = mark t (entryOf id n.original) := by
      simp [mark, entryOf, edited, hn, Node.restore, Node.original, Node.isEdited,
        Node.hasChildren]
    rw [ofNode, ofNode.eq_1 t.original, restored, original, node?_mapNodes, node?_mapNodes, hn]
    simp only [Option.map_some, Rose.map_node]
    rw [hentry, children_mapNodes Node.children_restore, children_mapNodes Node.children_original]
    congr 1
    induction t.children id with
    | nil => rfl
    | cons child rest ihrest =>
      simp only [List.foldr_cons, isProper, size_mapNodes] at ihrest ⊢
      split
      · next hc =>
        rw [List.map_cons, ihrest]
        exact congrArg (· :: _) (ih child hc)
      · exact ihrest

theorem ofTree_restored (t : DerivationTree) :
    ofTree t.restored = (ofTree t.original).map (mark t) := ofNode_restored t root

end Snapshot

end GrammarExplorer
