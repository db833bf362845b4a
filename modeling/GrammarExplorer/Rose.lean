/-
Trees whose nodes have a label and any number of children.
-/
namespace GrammarExplorer

inductive Rose (α : Type) where
  | node (label : α) (children : List (Rose α))

namespace Rose

variable {α β : Type}

def label : Rose α → α
  | node a _ => a

def children : Rose α → List (Rose α)
  | node _ cs => cs

mutual

/-- Combines the label of each node with what its children gave. -/
def fold (f : α → List β → β) : Rose α → β
  | node a cs => f a (foldAll f cs)

def foldAll (f : α → List β → β) : List (Rose α) → List β
  | [] => []
  | t :: ts => fold f t :: foldAll f ts

end

theorem foldAll_eq_map (f : α → List β → β) (ts : List (Rose α)) :
    foldAll f ts = ts.map (fold f) := by
  induction ts with
  | nil => rfl
  | cons t ts ih => simp [foldAll, ih]

theorem fold_node (f : α → List β → β) (a : α) (cs : List (Rose α)) :
    fold f (node a cs) = f a (cs.map (fold f)) := by
  simp [fold, foldAll_eq_map]

/-- Induction over the nodes: what holds of a node when it holds of its
children, holds of every tree. -/
@[elab_as_elim]
theorem induct {motive : Rose α → Prop}
    (node : ∀ a cs, (∀ c ∈ cs, motive c) → motive (.node a cs)) : ∀ t, motive t :=
  Rose.rec (motive_1 := motive) (motive_2 := fun cs => ∀ c ∈ cs, motive c) node
    (by simp) (fun _ _ h hs => by simp only [List.mem_cons, forall_eq_or_imp]; exact ⟨h, hs⟩)

/-- The tree with every label changed. -/
def map (f : α → β) : Rose α → Rose β := fold fun a cs => node (f a) cs

theorem map_node (f : α → β) (a : α) (cs : List (Rose α)) :
    (node a cs).map f = node (f a) (cs.map (map f)) := fold_node _ a cs

mutual

/-- The number of nodes. -/
def size : Rose α → Nat
  | node _ cs => sizeAll cs + 1

def sizeAll : List (Rose α) → Nat
  | [] => 0
  | t :: ts => size t + sizeAll ts

end

theorem size_eq (t : Rose α) : t.size = sizeAll t.children + 1 := by
  cases t with
  | node a cs => rw [size, children]

theorem size_pos (t : Rose α) : 0 < t.size := by
  rw [size_eq]
  omega

theorem sizeAll_append (ts us : List (Rose α)) : sizeAll (ts ++ us) = sizeAll ts + sizeAll us := by
  induction ts with
  | nil => simp [sizeAll]
  | cons t ts ih =>
    rw [List.cons_append, sizeAll, sizeAll, ih]
    omega

theorem size_lt_of_mem {a : α} {c : Rose α} {cs : List (Rose α)} (h : c ∈ cs) :
    c.size < (node a cs).size := by
  rw [size]
  induction cs with
  | nil => simp at h
  | cons d ds ih =>
    rw [sizeAll]
    rcases List.mem_cons.1 h with rfl | h
    · omega
    · have := ih h
      omega

mutual

/-- The labels, a node before its children, put in front of `after`. -/
def preorderOnto (after : List α) : Rose α → List α
  | node a cs => a :: preorderAllOnto after cs

def preorderAllOnto (after : List α) : List (Rose α) → List α
  | [] => after
  | t :: ts => preorderOnto (preorderAllOnto after ts) t

end

/-- The labels, a node before its children. -/
def preorder (t : Rose α) : List α := t.preorderOnto []

mutual

theorem preorderOnto_eq (after : List α) : ∀ t : Rose α, t.preorderOnto after = t.preorder ++ after
  | node a cs => by
    simp only [preorder, preorderOnto, preorderAllOnto_eq after cs, preorderAllOnto_eq [] cs,
      List.append_nil, List.cons_append]

theorem preorderAllOnto_eq (after : List α) :
    ∀ ts : List (Rose α), preorderAllOnto after ts = ts.flatMap preorder ++ after
  | [] => rfl
  | t :: ts => by
    rw [preorderAllOnto, preorderAllOnto_eq after ts, preorderOnto_eq _ t, List.flatMap_cons,
      List.append_assoc]

end

theorem preorder_node (a : α) (cs : List (Rose α)) :
    (node a cs).preorder = a :: cs.flatMap preorder := by
  rw [preorder, preorderOnto, preorderAllOnto_eq, List.append_nil]

mutual

theorem length_preorder : ∀ t : Rose α, t.preorder.length = t.size
  | node a cs => by rw [preorder_node, List.length_cons, length_flatMap_preorder cs, size]

theorem length_flatMap_preorder : ∀ ts : List (Rose α), (ts.flatMap preorder).length = sizeAll ts
  | [] => rfl
  | t :: ts => by
    rw [List.flatMap_cons, List.length_append, length_preorder t, length_flatMap_preorder ts,
      sizeAll]

end

theorem preorder_map (f : α → β) (t : Rose α) : (t.map f).preorder = t.preorder.map f := by
  induction t using induct with
  | node a cs ih =>
    rw [map_node, preorder_node, preorder_node, List.map_cons, List.flatMap_map, List.map_flatMap,
      List.flatMap_def, List.flatMap_def, List.map_congr_left ih]

end Rose

end GrammarExplorer
