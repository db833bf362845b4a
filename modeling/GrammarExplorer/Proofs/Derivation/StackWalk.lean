/-
Walks that keep a stack of their own.

Each turn of such a walk takes a node off the stack and puts its children on.
If the first child comes to lie on top, the nodes are met in the order of the
recursive walk (`walkTurns_ofRose`); for the depth the order does not matter,
and the last child lies on top (`depthTurns_ofRose`). In between, the stack
stands for trees that lie in the table (`Carries`), and a turn leaves one node
less of them (`nodeCount_turn`).
-/
import GrammarExplorer.Proofs.Derivation.Layout
import GrammarExplorer.Proofs.Rose

namespace GrammarExplorer

namespace Rose

variable {α : Type}

theorem sizeAll_reverse (ts : List (Rose α)) : sizeAll ts.reverse = sizeAll ts := by
  induction ts with
  | nil => rfl
  | cons t ts ih =>
    rw [List.reverse_cons, sizeAll_append, ih, sizeAll, sizeAll, sizeAll]
    omega

/-- The places of trees that lie one after the other. -/
theorem flatMap_range'_placed (id : Nat) (ts : List (Rose α)) :
    (placed id ts).flatMap (fun p => List.range' p.1 p.2.size) = List.range' id (sizeAll ts) := by
  induction ts generalizing id with
  | nil => rfl
  | cons t ts ih => rw [placed, List.flatMap_cons, ih, sizeAll, List.range'_append_1]

end Rose

namespace DerivationTree

open Rose (placed)

/-- A tree whose root is on a stack, with the place of the root and the number
of nodes down to it. -/
structure Stacked where
  depth : Nat
  id : Nat
  tree : Rose Role

namespace Stacked

/-- The trees below the root, one node further down. -/
def below (x : Stacked) : List Stacked :=
  (placed (x.id + 1) x.tree.children).map fun p => ⟨x.depth + 1, p.1, p.2⟩

theorem map_tree_below (x : Stacked) : x.below.map (·.tree) = x.tree.children := by
  rw [below, List.map_map]
  exact Rose.map_snd_placed _ _

/-- The number of nodes that some trees have together. -/
def nodeCount (parts : List Stacked) : Nat := Rose.sizeAll (parts.map (·.tree))

theorem nodeCount_append (parts more : List Stacked) :
    nodeCount (parts ++ more) = nodeCount parts + nodeCount more := by
  rw [nodeCount, List.map_append, Rose.sizeAll_append, nodeCount, nodeCount]

theorem nodeCount_reverse (parts : List Stacked) : nodeCount parts.reverse = nodeCount parts := by
  rw [nodeCount, List.map_reverse, Rose.sizeAll_reverse, nodeCount]

theorem nodeCount_turn (x : Stacked) (rest : List Stacked) :
    nodeCount (x :: rest) = nodeCount (x.below ++ rest) + 1 := by
  rw [nodeCount_append, nodeCount, nodeCount, map_tree_below, List.map_cons, Rose.sizeAll,
    Rose.size_eq, nodeCount, Nat.add_right_comm]

theorem eq_nil_of_nodeCount {parts : List Stacked} (h : nodeCount parts = 0) : parts = [] := by
  cases parts with
  | nil => rfl
  | cons x rest =>
    rw [nodeCount_turn] at h
    cases h

/-- Of all trees on a stack, none reaches further down than `n`, just if no
root does and none of the trees below. -/
theorem reaches_turn (x : Stacked) (rest : List Stacked) (n : Nat) :
    (∀ y ∈ x :: rest, y.depth + y.tree.height ≤ n + 1) ↔
      x.depth ≤ n ∧ ∀ y ∈ x.below ++ rest, y.depth + y.tree.height ≤ n + 1 := by
  have hbelow : (∀ y ∈ x.below, y.depth + y.tree.height ≤ n + 1) ↔
      ∀ c ∈ x.tree.children, x.depth + 1 + c.height ≤ n + 1 := by
    rw [below, List.forall_mem_map, ← Rose.map_snd_placed x.tree.children (x.id + 1),
      List.forall_mem_map, Rose.map_snd_placed]
  have hroot := Rose.depth_add_height_le_iff x.tree.label x.tree.children x.depth n
  rw [List.forall_mem_cons, List.forall_mem_append, hbelow, ← and_assoc, ← hroot]
  cases x with
  | mk depth id tree => cases tree; rfl

end Stacked

open Stacked (nodeCount nodeCount_turn)

/-- Whether the trees on a stack lie in the table. -/
def Carries (t : DerivationTree) (parts : List Stacked) : Prop :=
  ∀ x ∈ parts, ∃ parent, t.Holds parent x.id x.tree

theorem Holds.carries {t : DerivationTree} {parent : Option Nat} {id : Nat} {r : Rose Role}
    (h : t.Holds parent id r) (depth : Nat) : t.Carries [⟨depth, id, r⟩] := by
  intro x hx
  rw [List.mem_singleton.1 hx]
  exact ⟨parent, h⟩

section Carries

variable {t : DerivationTree} {x : Stacked} {rest : List Stacked}

theorem Carries.turn (h : t.Carries (x :: rest)) : t.Carries (x.below ++ rest) := by
  intro y hy
  rcases List.mem_append.1 hy with hy | hy
  · obtain ⟨parent, hx⟩ := h x List.mem_cons_self
    obtain ⟨p, hp, rfl⟩ := List.mem_map.1 hy
    exact ⟨some x.id, hx.child hp⟩
  · exact h y (List.mem_cons_of_mem _ hy)

theorem Carries.children (h : t.Carries (x :: rest)) : t.children x.id = x.below.map (·.id) := by
  obtain ⟨parent, hx⟩ := h x List.mem_cons_self
  rw [hx.children, Stacked.below, List.map_map]
  rfl

end Carries

/-! ## The order of a walk -/

/-- A walk with a stack, for so many turns: the nodes it meets, and the stack
it leaves. The first child of a node is the next one to be met. -/
def walkTurns (t : DerivationTree) : Nat → List Nat → List Nat × List Nat
  | 0, stack => ([], stack)
  | _ + 1, [] => ([], [])
  | turns + 1, id :: rest =>
    let (met, left) := walkTurns t turns (t.children id ++ rest)
    (id :: met, left)

/-- With trees of a table on the stack, one turn for each of their nodes
empties it, and meets them tree by tree, each from its first place to its
last. -/
theorem walkTurns_eq {t : DerivationTree} {turns : Nat} : ∀ {parts : List Stacked},
    t.Carries parts → nodeCount parts = turns → t.walkTurns turns (parts.map (·.id))
      = (parts.flatMap fun x => List.range' x.id x.tree.size, []) := by
  induction turns with
  | zero =>
    intro parts _ hturns
    rw [Stacked.eq_nil_of_nodeCount hturns]
    rfl
  | succ turns ih =>
    intro parts hparts hturns
    cases parts with
    | nil => cases hturns
    | cons x rest =>
      rw [nodeCount_turn, Nat.succ.injEq] at hturns
      have hbelow : x.below.flatMap (fun y => List.range' y.id y.tree.size)
          = List.range' (x.id + 1) (Rose.sizeAll x.tree.children) := by
        rw [Stacked.below, List.flatMap_map]
        exact Rose.flatMap_range'_placed _ _
      rw [List.map_cons, walkTurns, hparts.children, ← List.map_append, ih hparts.turn hturns,
        List.flatMap_append, hbelow, List.flatMap_cons, Rose.size_eq, List.range'_succ,
        List.cons_append]

/-- From the root of a tree, the walk is one through the tree. -/
theorem Holds.walkTurns {t : DerivationTree} {parent : Option Nat} {id : Nat} {r : Rose Role}
    (h : t.Holds parent id r) : t.walkTurns r.size [id] = (List.range' id r.size, []) := by
  have hmet := walkTurns_eq (h.carries 0) rfl
  rw [List.flatMap_cons, List.flatMap_nil, List.append_nil] at hmet
  exact hmet

/-- The walk with a stack through the table of a tree is the recursive one, and
is over when it has met every node. -/
theorem walkTurns_ofRose (r : Rose Role) :
    (ofRose r).walkTurns (ofRose r).size [root] = ((ofRose r).walk, []) := by
  rw [walk_ofRose, size_ofRose, List.range_eq_range']
  exact (holds_ofRose r).walkTurns

/-! ## The depth -/

/-- A walk with a stack, for so many turns, that has with each node the number
of nodes down to it: the greatest number so far, and the stack it leaves. The
last child of a node is the next one to be met. -/
def depthTurns (t : DerivationTree) : Nat → Nat → List (Nat × Nat) → Nat × List (Nat × Nat)
  | 0, deepest, stack => (deepest, stack)
  | _ + 1, deepest, [] => (deepest, [])
  | turns + 1, deepest, (id, depth) :: rest =>
    depthTurns t turns (max deepest depth)
      (((t.children id).map fun child => (child, depth + 1)).reverse ++ rest)

/-- What lies on the stack for a tree. -/
def Stacked.entry (x : Stacked) : Nat × Nat := (x.id, x.depth)

/-- With trees of a table on the stack, one turn for each of their nodes
empties it, and finds the lowest node of them all. -/
theorem depthTurns_le_iff {t : DerivationTree} {turns : Nat} :
    ∀ (deepest : Nat) {parts : List Stacked}, t.Carries parts → nodeCount parts = turns →
      (t.depthTurns turns deepest (parts.map Stacked.entry)).2 = [] ∧
      ∀ n, (t.depthTurns turns deepest (parts.map Stacked.entry)).1 ≤ n ↔
        deepest ≤ n ∧ ∀ x ∈ parts, x.depth + x.tree.height ≤ n + 1 := by
  induction turns with
  | zero =>
    intro deepest parts _ hturns
    rw [Stacked.eq_nil_of_nodeCount hturns]
    simp [depthTurns]
  | succ turns ih =>
    intro deepest parts hparts hturns
    cases parts with
    | nil => cases hturns
    | cons x rest =>
      have hmem : ∀ y, y ∈ x.below.reverse ++ rest ↔ y ∈ x.below ++ rest := by simp
      have hbelow : t.Carries (x.below.reverse ++ rest) := fun y hy =>
        hparts.turn y ((hmem y).1 hy)
      have hcount : nodeCount (x.below.reverse ++ rest) = turns := by
        rw [nodeCount_turn, Nat.succ.injEq, Stacked.nodeCount_append] at hturns
        rw [Stacked.nodeCount_append, Stacked.nodeCount_reverse, hturns]
      have hstack : ((t.children x.id).map fun child => (child, x.depth + 1)).reverse
          ++ rest.map Stacked.entry = (x.below.reverse ++ rest).map Stacked.entry := by
        rw [hparts.children, List.map_append, List.map_reverse, List.map_map, Stacked.below,
          List.map_map, List.map_map]
        rfl
      obtain ⟨hempty, hle⟩ := ih (max deepest x.depth) hbelow hcount
      rw [List.map_cons, Stacked.entry, depthTurns, hstack]
      refine ⟨hempty, fun n => ?_⟩
      rw [hle, Nat.max_le, and_assoc, Stacked.reaches_turn]
      simp only [hmem]

theorem Holds.depthFrom {t : DerivationTree} {parent : Option Nat} {id : Nat} {r : Rose Role}
    (h : t.Holds parent id r) : t.depthFrom id = r.height := by
  induction r using Rose.induct generalizing parent id with
  | node role cs ih =>
    have below : (placed (id + 1) cs).map (fun p => t.depthFrom p.1)
        = ((placed (id + 1) cs).map (·.2)).map Rose.height := by
      rw [List.map_map]
      exact List.map_congr_left fun p hp => ih p.2 (Rose.snd_mem_of_placed hp) (h.child hp)
    rw [DerivationTree.depthFrom, foldr_guarded fun _ hc => h.isProper hc, h.children,
      Rose.children, ← List.foldr_map (f := t.depthFrom) (g := max), List.map_map,
      Function.comp_def, below, Rose.map_snd_placed, Rose.height_node, Nat.add_comm]

theorem depth_ofRose (r : Rose Role) : (ofRose r).depth = r.height := by
  have hin : (ofRose r).contains root = true := by
    rw [contains, size_ofRose]
    exact decide_eq_true r.size_pos
  rw [depth, if_pos hin]
  exact (holds_ofRose r).depthFrom

/-- The walk with a stack finds the depth of the table of a tree, and is over
when it has met every node. -/
theorem depthTurns_ofRose (r : Rose Role) :
    (ofRose r).depthTurns (ofRose r).size 0 [(root, 1)] = ((ofRose r).depth, []) := by
  rw [size_ofRose]
  obtain ⟨hempty, hle⟩ := depthTurns_le_iff 0 ((holds_ofRose r).carries 1) rfl
  refine Prod.ext (eq_of_forall_ge_iff fun n => (hle n).trans ?_) hempty
  rw [depth_ofRose, List.forall_mem_singleton]
  show 0 ≤ n ∧ 1 + r.height ≤ n + 1 ↔ r.height ≤ n
  omega

end DerivationTree

end GrammarExplorer
