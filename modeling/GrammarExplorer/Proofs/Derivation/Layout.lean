/-
How a tree lies in the table of nodes: in preorder, so that a node stands
before all below it and every subtree in one piece.

`rows` is that table. `graft` hangs a tree below a node of a table one node
at a time, as `DerivationTree.push` does; `toList_graft` says that the rows
come out. `Holds t parent id r` is the way to speak of a part of a table:
`t` has the tree `r` in place `id`. What holds of a tree passes on to its
children (`Holds.child`), and a walk from there finds exactly the places of
the part (`Holds.walkOnto`).
-/
import GrammarExplorer.Derivation.Expansion
import GrammarExplorer.Derivation.Tree

namespace GrammarExplorer

/-- Trees that lie one after the other from a place on, each with the place
of its root. -/
def Rose.placed {α : Type} (id : Nat) : List (Rose α) → List (Nat × Rose α)
  | [] => []
  | c :: cs => (id, c) :: placed (id + c.size) cs

namespace Rose

variable {α : Type}

theorem map_snd_placed (cs : List (Rose α)) : ∀ id, (placed id cs).map (·.2) = cs := by
  induction cs with
  | nil => intro id; rfl
  | cons c cs ih => intro id; simp [placed, ih]

theorem snd_mem_of_placed {id : Nat} {cs : List (Rose α)} {p : Nat × Rose α}
    (h : p ∈ placed id cs) : p.2 ∈ cs := by
  rw [← map_snd_placed cs id]
  exact List.mem_map_of_mem h

theorem placed_bounds {id : Nat} {cs : List (Rose α)} {p : Nat × Rose α} (h : p ∈ placed id cs) :
    id ≤ p.1 ∧ p.1 + p.2.size ≤ id + sizeAll cs := by
  induction cs generalizing id with
  | nil => simp [placed] at h
  | cons c cs ih =>
    rw [sizeAll]
    simp only [placed, List.mem_cons] at h
    rcases h with rfl | h
    · simp only
      omega
    · have := ih h
      omega

/-- A tree ends before the next one starts. -/
theorem pairwise_placed (id : Nat) (cs : List (Rose α)) :
    (placed id cs).Pairwise fun p q => p.1 + p.2.size ≤ q.1 := by
  induction cs generalizing id with
  | nil => simp [placed]
  | cons c cs ih =>
    rw [placed, List.pairwise_cons]
    exact ⟨fun q hq => (placed_bounds hq).1, ih _⟩

/-- There are no gaps between the trees. -/
theorem exists_placed (cs : List (Rose α)) {id x : Nat} (h : id ≤ x)
    (hx : x < id + sizeAll cs) : ∃ p ∈ placed id cs, p.1 ≤ x ∧ x < p.1 + p.2.size := by
  induction cs generalizing id with
  | nil =>
    rw [sizeAll] at hx
    omega
  | cons c cs ih =>
    rw [sizeAll] at hx
    by_cases hc : x < id + c.size
    · exact ⟨(id, c), by simp [placed], h, hc⟩
    · obtain ⟨p, hp, hpx⟩ := @ih (id + c.size) (by omega) (by omega)
      exact ⟨p, by simp [placed, hp], hpx⟩

/-- A place within a tree is that of its root or within one of its
children. -/
theorem eq_or_exists_placed (r : Rose α) {id x : Nat} (h : id ≤ x) (hx : x < id + r.size) :
    x = id ∨ ∃ p ∈ placed (id + 1) r.children, p.1 ≤ x ∧ x < p.1 + p.2.size := by
  by_cases hid : x = id
  · exact .inl hid
  · have hle : id + 1 ≤ x := by omega
    rw [size_eq] at hx
    exact .inr (exists_placed r.children hle (by omega))

end Rose

namespace DerivationTree

open Rose (placed)

/-- The row of a node whose subtrees follow it. -/
def row (parent : Option Nat) (id : Nat) (role : Role) (cs : List (Rose Role)) : Node where
  name := role.name
  label := role.name
  kind := role.kind
  children := (placed (id + 1) cs).map (·.1)
  parent := parent
  firstLabel := none
  shared := role.shared

mutual

/-- The nodes of a tree in preorder, its root in place `id`. -/
def rows (parent : Option Nat) (id : Nat) : Rose Role → List Node
  | .node role cs => row parent id role cs :: rowsBelow id (id + 1) cs

def rowsBelow (parent : Nat) (id : Nat) : List (Rose Role) → List Node
  | [] => []
  | c :: cs => rows (some parent) id c ++ rowsBelow parent (id + c.size) cs

end

/-- The table of a tree: no node was edited, and a node's place is its
number in preorder. -/
def ofRose (r : Rose Role) : DerivationTree := ⟨(rows none 0 r).toArray⟩

mutual

theorem length_rows (parent : Option Nat) (id : Nat) :
    ∀ r : Rose Role, (rows parent id r).length = r.size
  | .node role cs => by
    rw [rows, List.length_cons, length_rowsBelow, Rose.size]

theorem length_rowsBelow (parent id : Nat) :
    ∀ cs : List (Rose Role), (rowsBelow parent id cs).length = Rose.sizeAll cs
  | [] => rfl
  | c :: cs => by
    rw [rowsBelow, List.length_append, length_rows, length_rowsBelow, Rose.sizeAll]

end

theorem size_eq_length (t : DerivationTree) : t.size = t.nodes.toList.length :=
  Array.length_toList.symm

theorem node?_eq (t : DerivationTree) (id : Nat) : t.node? id = t.nodes.toList[id]? :=
  Array.getElem?_toList.symm

theorem lt_size_of_node? {t : DerivationTree} {id : Nat} {n : Node} (h : t.node? id = some n) :
    id < t.size := (Array.getElem?_eq_some_iff.1 h).1

/-! ## Growing a table -/

mutual

/-- Hangs a tree below a node, one node at a time. -/
def graft (t : DerivationTree) (parent : Option Nat) : Rose Role → DerivationTree
  | .node role cs => graftAll (t.push (.fresh role.name role.kind parent role.shared)) t.size cs

def graftAll (t : DerivationTree) (parent : Nat) : List (Rose Role) → DerivationTree
  | [] => t
  | c :: cs => graftAll (graft t (some parent) c) parent cs

end

/-- The rows of a table once a node has new children. -/
def adopt (rows : List Node) (parent : Option Nat) (children : List Nat) : List Node :=
  match parent with
  | none => rows
  | some p => rows.modify p fun n => { n with children := n.children ++ children }

theorem length_adopt (rows : List Node) (parent : Option Nat) (children : List Nat) :
    (adopt rows parent children).length = rows.length := by
  cases parent <;> simp [adopt]

theorem adopt_nil (rows : List Node) (parent : Option Nat) : adopt rows parent [] = rows := by
  cases parent with
  | none => rfl
  | some p =>
    simp only [adopt, List.append_nil]
    exact List.modify_id p rows

theorem adopt_adopt (rows : List Node) (p : Nat) (xs ys : List Nat) :
    adopt (adopt rows (some p) xs) (some p) ys = adopt rows (some p) (xs ++ ys) := by
  simp only [adopt, List.modify_modify_eq]
  congr 1
  funext n
  simp

theorem adopt_append {rows : List Node} {p : Nat} (h : p < rows.length) (more : List Node)
    (children : List Nat) :
    adopt (rows ++ more) (some p) children = adopt rows (some p) children ++ more := by
  simp only [adopt]
  refine List.ext_getElem? fun i => ?_
  simp only [List.getElem?_modify, List.getElem?_append, List.length_modify]
  by_cases hi : i < rows.length
  · simp [hi]
  · simp [hi, show p ≠ i by omega]

theorem adopt_concat (rows : List Node) (n : Node) (children : List Nat) :
    adopt (rows ++ [n]) (some rows.length) children
      = rows ++ [{ n with children := n.children ++ children }] := by
  simp only [adopt]
  induction rows with
  | nil => rfl
  | cons r rows ih => simp only [List.cons_append, List.length_cons, List.modify_succ_cons, ih]

theorem toList_push (t : DerivationTree) (n : Node) :
    (t.push n).nodes.toList = adopt t.nodes.toList n.parent [t.size] ++ [n] := by
  unfold push
  cases n.parent with
  | none => simp [adopt]
  | some p => simp [adopt, Node.addChild]

mutual

/-- Grafting adds the rows of the tree and lists its root with its parent. -/
theorem toList_graft (t : DerivationTree) (parent : Option Nat) :
    ∀ r : Rose Role, (t.graft parent r).nodes.toList
      = adopt t.nodes.toList parent [t.size] ++ rows parent t.size r
  | .node role cs => by
    let base := adopt t.nodes.toList parent [t.size]
    have hbase : base.length = t.size := by rw [length_adopt, size_eq_length]
    have hpush : (t.push (.fresh role.name role.kind parent role.shared)).nodes.toList
        = base ++ [.fresh role.name role.kind parent role.shared] := toList_push t _
    have hsize : (t.push (.fresh role.name role.kind parent role.shared)).size = t.size + 1 := by
      rw [size_eq_length, hpush, List.length_append, hbase, List.length_singleton]
    -- The node is the last one there is, and gets all its children at once.
    rw [graft, toList_graftAll _ (by omega) cs, hsize, hpush, ← hbase, adopt_concat, hbase, rows,
      List.append_assoc, List.singleton_append]
    rfl

theorem toList_graftAll (t : DerivationTree) {parent : Nat} (h : parent < t.size) :
    ∀ cs : List (Rose Role), (t.graftAll parent cs).nodes.toList
      = adopt t.nodes.toList (some parent) ((placed t.size cs).map (·.1))
        ++ rowsBelow parent t.size cs
  | [] => by simp [graftAll, placed, rowsBelow, adopt_nil]
  | c :: cs => by
    have hsize : (t.graft (some parent) c).size = t.size + c.size := by
      rw [size_eq_length, toList_graft, List.length_append, length_adopt, length_rows,
        size_eq_length]
    rw [graftAll, toList_graftAll _ (by omega) cs, hsize, toList_graft,
      adopt_append (by rwa [length_adopt, ← size_eq_length]), adopt_adopt, List.append_assoc,
      rowsBelow, placed, List.map_cons, List.singleton_append]

end

/-- A tree that is grafted onto nothing. -/
theorem graft_empty (r : Rose Role) : (⟨#[]⟩ : DerivationTree).graft none r = ofRose r := by
  have h := toList_graft ⟨#[]⟩ none r
  simp only [adopt, List.nil_append, size, List.size_toArray, List.length_nil] at h
  rw [ofRose, ← h]

/-! ## Parts of a table -/

/-- The table has the tree in place `id`, below `parent`. -/
def Holds (t : DerivationTree) (parent : Option Nat) (id : Nat) (r : Rose Role) : Prop :=
  ∃ before after, t.nodes.toList = before ++ rows parent id r ++ after ∧ before.length = id

theorem holds_ofRose (r : Rose Role) : (ofRose r).Holds none 0 r :=
  ⟨[], [], by simp [ofRose], rfl⟩

theorem size_ofRose (r : Rose Role) : (ofRose r).size = r.size := by
  rw [size_eq_length, ofRose, length_rows]

theorem mem_rowsBelow_placed (parent : Nat) {id : Nat} {cs : List (Rose Role)} {p : Nat × Rose Role}
    (h : p ∈ placed id cs) : ∃ before after,
      rowsBelow parent id cs = before ++ rows (some parent) p.1 p.2 ++ after
        ∧ id + before.length = p.1 := by
  induction cs generalizing id with
  | nil => simp [placed] at h
  | cons c cs ih =>
    simp only [placed, List.mem_cons] at h
    rcases h with rfl | h
    · exact ⟨[], rowsBelow parent (id + c.size) cs, by simp [rowsBelow], rfl⟩
    · obtain ⟨before, after, heq, hlen⟩ := ih h
      refine ⟨rows (some parent) id c ++ before, after, ?_, ?_⟩
      · rw [rowsBelow, heq]
        simp only [List.append_assoc]
      · rw [List.length_append, length_rows]
        omega

section Holds

variable {t : DerivationTree} {parent : Option Nat} {id : Nat} {r : Rose Role}

theorem Holds.node? (h : t.Holds parent id r) :
    t.node? id = some (row parent id r.label r.children) := by
  obtain ⟨before, after, heq, hlen⟩ := h
  cases r with
  | node role cs =>
    rw [node?_eq, heq, rows, ← hlen]
    simp [Rose.label, Rose.children]

theorem Holds.bound (h : t.Holds parent id r) : id + r.size ≤ t.size := by
  obtain ⟨before, after, heq, hlen⟩ := h
  rw [size_eq_length, heq]
  simp only [List.length_append, length_rows, hlen]
  omega

theorem Holds.child (h : t.Holds parent id r) {p : Nat × Rose Role}
    (hp : p ∈ placed (id + 1) r.children) : t.Holds (some id) p.1 p.2 := by
  obtain ⟨before, after, heq, hlen⟩ := h
  obtain ⟨before', after', heq', hlen'⟩ := mem_rowsBelow_placed id hp
  cases r with
  | node role cs =>
    simp only [Rose.children] at heq'
    refine ⟨before ++ row parent id role cs :: before', after' ++ after, ?_, ?_⟩
    · rw [heq, rows, heq']
      simp only [List.append_assoc, List.cons_append]
    · rw [List.length_append, List.length_cons]
      omega

theorem Holds.children (h : t.Holds parent id r) :
    t.children id = (placed (id + 1) r.children).map (·.1) := by
  rw [DerivationTree.children, h.node?]
  rfl

theorem Holds.parent? (h : t.Holds parent id r) : t.parent? id = parent := by
  rw [DerivationTree.parent?, h.node?]
  rfl

theorem Holds.isProper (h : t.Holds parent id r) {child : Nat} (hc : child ∈ t.children id) :
    t.isProper id child = true := by
  rw [h.children, List.mem_map] at hc
  obtain ⟨p, hp, rfl⟩ := hc
  have hb := (h.child hp).bound
  have hpos := p.2.size_pos
  have hge := (Rose.placed_bounds hp).1
  simp only [DerivationTree.isProper, Bool.and_eq_true, decide_eq_true_eq]
  omega

/-- Every place of a tree has one of its subtrees, which lies below the tree
itself if it is not the whole. -/
theorem Holds.exists_of_lt (h : t.Holds parent id r) {x : Nat} (hx : id ≤ x)
    (hx' : x < id + r.size) : ∃ above s, t.Holds above x s ∧
      ((x = id ∧ above = parent) ∨ ∃ p, above = some p ∧ x ∈ t.children p) := by
  induction r using Rose.induct generalizing parent id with
  | node role cs ih =>
    obtain rfl | ⟨p, hp, hpx, hpx'⟩ := Rose.eq_or_exists_placed _ hx hx'
    · exact ⟨parent, _, h, .inl ⟨rfl, rfl⟩⟩
    · obtain ⟨above, s, hs, hself | hbelow⟩ :=
        ih p.2 (Rose.snd_mem_of_placed hp) (h.child hp) hpx hpx'
      · refine ⟨above, s, hs, .inr ⟨id, hself.2, ?_⟩⟩
        rw [hself.1, h.children]
        exact List.mem_map_of_mem hp
      · exact ⟨above, s, hs, .inr hbelow⟩

end Holds

theorem exists_holds_ofRose (r : Rose Role) {x : Nat} (hx : x < (ofRose r).size) :
    ∃ above s, (ofRose r).Holds above x s ∧
      ((x = 0 ∧ above = none) ∨ ∃ p, above = some p ∧ x ∈ (ofRose r).children p) := by
  rw [size_ofRose, ← Nat.zero_add r.size] at hx
  exact (holds_ofRose r).exists_of_lt (Nat.zero_le x) hx

theorem label_ofRose (r : Rose Role) {id : Nat} {n : Node} (hn : (ofRose r).node? id = some n) :
    n.label = n.name ∧ n.isEdited = false := by
  obtain ⟨above, s, hs, -⟩ := exists_holds_ofRose r (lt_size_of_node? hn)
  rw [hs.node?] at hn
  cases hn
  exact ⟨rfl, rfl⟩

/-- A node with children has a subtree in its place. -/
theorem exists_holds_of_mem_children {r : Rose Role} {id child : Nat}
    (hc : child ∈ (ofRose r).children id) : ∃ above s, (ofRose r).Holds above id s := by
  cases hn : (ofRose r).node? id with
  | none =>
    rw [DerivationTree.children, hn] at hc
    cases hc
  | some n =>
    obtain ⟨above, s, hs, -⟩ := exists_holds_ofRose r (lt_size_of_node? hn)
    exact ⟨above, s, hs⟩

/-- A child has a later place than its parent. -/
theorem isProper_ofRose {r : Rose Role} {id child : Nat} (hc : child ∈ (ofRose r).children id) :
    id < child ∧ child < (ofRose r).size := by
  obtain ⟨above, s, hs⟩ := exists_holds_of_mem_children hc
  simpa [isProper] using hs.isProper hc

/-- A node lists as its children the nodes whose parent it is. -/
theorem mem_children_ofRose (r : Rose Role) (id child : Nat) :
    child ∈ (ofRose r).children id ↔ (ofRose r).parent? child = some id := by
  constructor
  · intro hc
    obtain ⟨above, s, hs⟩ := exists_holds_of_mem_children hc
    rw [hs.children, List.mem_map] at hc
    obtain ⟨p, hp, rfl⟩ := hc
    exact (hs.child hp).parent?
  · intro hp
    cases hn : (ofRose r).node? child with
    | none =>
      rw [DerivationTree.parent?, hn] at hp
      cases hp
    | some n =>
      obtain ⟨above, s, hs, ⟨-, habove⟩ | ⟨p, habove, hmem⟩⟩ :=
        exists_holds_ofRose r (lt_size_of_node? hn)
      · rw [hs.parent?, habove] at hp
        cases hp
      · rw [hs.parent?, habove] at hp
        cases hp
        exact hmem

/-! ## Walks -/

/-- A guard that always lets through can be left out of a fold. -/
theorem foldr_guarded {α β : Type} {p : α → Bool} {k : α → β → β} {z : β} :
    ∀ {l : List α}, (∀ a ∈ l, p a = true) →
      l.foldr (fun a b => if _h : p a = true then k a b else b) z = l.foldr k z
  | [], _ => rfl
  | a :: l, h => by
    rw [List.foldr_cons, List.foldr_cons, foldr_guarded fun b hb => h b (by simp [hb]),
      dif_pos (h a (by simp))]

theorem Holds.walkOnto {t : DerivationTree} {parent : Option Nat} {id : Nat} {r : Rose Role}
    (h : t.Holds parent id r) (after : List Nat) :
    t.walkOnto after id = List.range' id r.size ++ after := by
  induction r using Rose.induct generalizing parent id after with
  | node role cs ih =>
    have below : ∀ a (ts : List (Rose Role)), (∀ p ∈ placed a ts, p ∈ placed (id + 1) cs) →
        ((placed a ts).map (·.1)).foldr (fun child rest => t.walkOnto rest child) after
          = List.range' a (Rose.sizeAll ts) ++ after := by
      intro a ts hmem
      induction ts generalizing a with
      | nil => rfl
      | cons c ts ihts =>
        have hc : (a, c) ∈ placed (id + 1) cs := hmem _ (by simp [placed])
        simp only [placed, List.map_cons, List.foldr_cons, Rose.sizeAll]
        rw [ihts _ fun p hp => hmem p (by simp [placed, hp]),
          ih c (Rose.snd_mem_of_placed hc) (h.child hc), ← List.append_assoc, List.range'_append_1]
    rw [DerivationTree.walkOnto, foldr_guarded fun _ hc => h.isProper hc, h.children,
      Rose.children, below _ _ fun _ hp => hp, Rose.size, List.range'_succ,
      List.cons_append]

/-- A walk through the table of a tree passes the places from first to
last. -/
theorem walk_ofRose (r : Rose Role) : (ofRose r).walk = List.range (ofRose r).size := by
  rw [walk, walkFrom, root, (holds_ofRose r).walkOnto, List.append_nil, size_ofRose,
    List.range_eq_range']

/-! ## Reading a table -/

/-- What a node stands for, as the table has it. -/
def roleOf (n : Node) : Role := ⟨n.name, n.kind, n.shared⟩

mutual

theorem map_roleOf_rows (parent : Option Nat) (id : Nat) :
    ∀ r : Rose Role, (rows parent id r).map roleOf = r.preorder
  | .node role cs => by
    rw [rows, List.map_cons, map_roleOf_rowsBelow, Rose.preorder_node]
    rfl

theorem map_roleOf_rowsBelow (parent id : Nat) :
    ∀ cs : List (Rose Role), (rowsBelow parent id cs).map roleOf = cs.flatMap Rose.preorder
  | [] => rfl
  | c :: cs => by
    rw [rowsBelow, List.map_append, map_roleOf_rows, map_roleOf_rowsBelow, List.flatMap_cons]

end

theorem map_roleOf_ofRose (r : Rose Role) : (ofRose r).nodes.toList.map roleOf = r.preorder :=
  map_roleOf_rows none 0 r

/-- The tree below a node, found by way of the children each node lists. -/
def readFrom (t : DerivationTree) (id : Nat) : Rose Role :=
  match t.node? id with
  | none => .node ⟨"", .category, false⟩ []
  | some n =>
    .node (roleOf n) <| (t.children id).foldr
      (fun child rest => if _h : t.isProper id child then readFrom t child :: rest else rest) []
termination_by t.size - id
decreasing_by
  simp only [isProper, Bool.and_eq_true, decide_eq_true_eq] at _h
  omega

/-- The tree of a table. -/
def read (t : DerivationTree) : Rose Role := t.readFrom root

theorem Holds.readFrom {t : DerivationTree} {parent : Option Nat} {id : Nat} {r : Rose Role}
    (h : t.Holds parent id r) : t.readFrom id = r := by
  induction r using Rose.induct generalizing parent id with
  | node role cs ih =>
    have below : (placed (id + 1) cs).map (fun p => t.readFrom p.1)
        = (placed (id + 1) cs).map (·.2) :=
      List.map_congr_left fun p hp => ih p.2 (Rose.snd_mem_of_placed hp) (h.child hp)
    rw [DerivationTree.readFrom, h.node?]
    simp only
    rw [foldr_guarded fun _ hc => h.isProper hc, h.children, Rose.children, List.foldr_map,
      List.foldr_cons_eq_append, List.append_nil, below, Rose.map_snd_placed]
    rfl

theorem read_ofRose (r : Rose Role) : (ofRose r).read = r := (holds_ofRose r).readFrom

end DerivationTree

end GrammarExplorer
