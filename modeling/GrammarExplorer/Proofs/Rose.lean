/-
Where the nodes of a tree are.

The address of a node lists the positions to take from the root on, each among
the children of the node before it. `places` goes over the tree in preorder
with the address of every node. How deep the nodes lie in that order is enough
to tell the tree from all others (`eq_of_depths`): a tree ends where the first
node comes that is not below its root (`delimited`).
-/
import GrammarExplorer.Rose
import Mathlib.Data.List.Infix

namespace GrammarExplorer.Rose

variable {α β : Type}

/-- The part of a tree below an address. -/
def at? (t : Rose α) : List Nat → Option (Rose α)
  | [] => some t
  | i :: address => t.children[i]?.bind (·.at? address)

/-- Whether the node at an address has a sibling after it. -/
def hasLaterSibling (t : Rose α) (address : List Nat) : Bool :=
  match address.getLast? with
  | none => false
  | some i => (t.at? (address.dropLast ++ [i + 1])).isSome

/-- For each node below the root on the way to an address, the node there
included, whether it has a sibling after it. -/
def turns (t : Rose α) (address : List Nat) : List Bool :=
  address.inits.tail.map t.hasLaterSibling

mutual

/-- The addresses and labels of the nodes, a node before its children. -/
def places : Rose α → List (List Nat × α)
  | node a cs => ([], a) :: placesFrom 0 cs

/-- The same for siblings, the first of which has the position `i`. -/
def placesFrom (i : Nat) : List (Rose α) → List (List Nat × α)
  | [] => []
  | t :: ts => (places t).map (fun x => (i :: x.1, x.2)) ++ placesFrom (i + 1) ts

end

theorem placesFrom_eq (i : Nat) (ts : List (Rose α)) :
    placesFrom i ts =
      (ts.zipIdx i).flatMap fun t => t.1.places.map fun x => (t.2 :: x.1, x.2) := by
  induction ts generalizing i with
  | nil => rfl
  | cons t ts ih => rw [placesFrom, ih, List.zipIdx_cons, List.flatMap_cons]

theorem places_node (a : α) (cs : List (Rose α)) :
    (node a cs).places =
      ([], a) :: cs.zipIdx.flatMap fun c => c.1.places.map fun x => (c.2 :: x.1, x.2) := by
  rw [places, placesFrom_eq]

/-- What is made of the children alone does not depend on their positions. -/
theorem flatMap_zipIdx_fst {γ : Type} (f : γ → List β) (l : List γ) :
    (l.zipIdx.flatMap fun x => f x.1) = l.flatMap f := by
  rw [← List.flatMap_map Prod.fst, List.zipIdx_map_fst]

/-- The places come in preorder. -/
theorem map_snd_places (t : Rose α) : t.places.map (·.2) = t.preorder := by
  induction t using induct with
  | node a cs ih =>
    rw [places_node, preorder_node, List.map_cons, List.map_flatMap]
    simp only [List.map_map, Function.comp_def]
    rw [flatMap_zipIdx_fst fun c : Rose α => c.places.map (·.2), List.flatMap_congr ih]

/-- The addresses are those of the tree, each with the label that is there. -/
theorem mem_places_iff {t : Rose α} {address : List Nat} {a : α} :
    (address, a) ∈ t.places ↔ (t.at? address).map label = some a := by
  induction address generalizing t with
  | nil =>
    cases t with
    | node b cs => simp [places_node, at?, label, eq_comm]
  | cons i address ih =>
    cases t with
    | node b cs =>
      have hplaces : (i :: address, a) ∈ (node b cs).places ↔
          ∃ c, cs[i]? = some c ∧ (address, a) ∈ c.places := by
        simp [places_node, List.mem_zipIdx_iff_getElem?]
      rw [hplaces, at?, children, Option.map_bind]
      cases hc : cs[i]? with
      | none => simp
      | some c => simp [ih]

/-! ## Turns -/

@[simp] theorem turns_nil (t : Rose α) : t.turns [] = [] := rfl

theorem hasLaterSibling_singleton (a : α) (cs : List (Rose α)) (i : Nat) :
    (node a cs).hasLaterSibling [i] = decide (i + 1 < cs.length) := by
  by_cases h : i + 1 < cs.length
  · simp [hasLaterSibling, at?, children, h]
  · simp [hasLaterSibling, at?, children, h]

theorem hasLaterSibling_cons (a : α) {cs : List (Rose α)} {c : Rose α} {i : Nat}
    (hc : cs[i]? = some c) {address : List Nat} (h : address ≠ []) :
    (node a cs).hasLaterSibling (i :: address) = c.hasLaterSibling address := by
  obtain ⟨front, j, rfl⟩ := List.eq_nil_or_concat' address |>.resolve_left h
  have hlast : (i :: (front ++ [j])).getLast? = some j := by
    rw [← List.cons_append, List.getLast?_concat]
  have hfront : (i :: (front ++ [j])).dropLast = i :: front := by
    rw [← List.cons_append, List.dropLast_concat]
  simp only [hasLaterSibling, hlast, hfront, List.getLast?_concat, List.dropLast_concat,
    List.cons_append, at?, children, hc, Option.bind_some]

/-- The way to a node below a child starts with the child. -/
theorem turns_cons (a : α) {cs : List (Rose α)} {c : Rose α} {i : Nat} (hc : cs[i]? = some c)
    (address : List Nat) :
    (node a cs).turns (i :: address) = decide (i + 1 < cs.length) :: c.turns address := by
  have hinits : address.inits = [] :: address.inits.tail := by
    cases address <;> rfl
  have hne : ∀ way ∈ address.inits.tail, way ≠ [] := by
    cases address with
    | nil => simp
    | cons j address => simp
  rw [turns, List.inits_cons, List.tail_cons, hinits, List.map_cons, List.map_cons, List.map_map,
    hasLaterSibling_singleton, turns]
  exact congrArg _ (List.map_congr_left fun way hway => hasLaterSibling_cons a hc (hne way hway))

theorem length_turns (t : Rose α) (address : List Nat) :
    (t.turns address).length = address.length := by
  rw [turns, List.length_map, List.length_tail, List.length_inits, Nat.add_sub_cancel]

/-! ## Depths -/

/-- The labels in preorder, each with the number of nodes above it; there are
`above` of them above the root. -/
def depths (above : Nat) (t : Rose α) : List (Nat × α) :=
  t.places.map fun x => (above + x.1.length, x.2)

theorem depths_node (above : Nat) (a : α) (cs : List (Rose α)) :
    (node a cs).depths above = (above, a) :: cs.flatMap (depths (above + 1)) := by
  have hchild : ∀ c : Rose α × Nat,
      (c.1.places.map fun x => (c.2 :: x.1, x.2)).map (fun x => (above + x.1.length, x.2)) =
        c.1.depths (above + 1) := by
    intro c
    simp [depths, Nat.add_comm, Nat.add_left_comm]
  rw [depths, places_node, List.map_cons, List.map_flatMap]
  simp only [hchild]
  rw [flatMap_zipIdx_fst]
  rfl

theorem depths_map (f : α → β) (above : Nat) (t : Rose α) :
    (t.map f).depths above = (t.depths above).map fun x => (x.1, f x.2) := by
  induction t using induct generalizing above with
  | node a cs ih =>
    rw [map_node, depths_node, depths_node, List.map_cons, List.flatMap_map, List.map_flatMap,
      List.flatMap_congr fun c hc => ih c hc (above + 1)]

theorem head?_siblings (depth : Nat) (c : Rose α) (cs : List (Rose α)) (rest : List (Nat × α)) :
    ((c :: cs).flatMap (depths depth) ++ rest).head? = some (depth, c.label) := by
  cases c with
  | node a ds =>
    rw [List.flatMap_cons, depths_node, List.cons_append, List.cons_append, List.head?_cons, label]

/-- Whether what comes first, if anything does, lies no deeper than `depth`. -/
def StartsAbove (depth : Nat) (rest : List (Nat × α)) : Prop :=
  ∀ x ∈ rest.head?, x.1 ≤ depth

/-- Whether one can tell where the tree ends when nodes follow that lie no
deeper than its root. -/
def Delimited (depth : Nat) (t : Rose α) : Prop :=
  ∀ {u : Rose α} {rest rest' : List (Nat × α)}, StartsAbove depth rest → StartsAbove depth rest' →
    t.depths depth ++ rest = u.depths depth ++ rest' → t = u ∧ rest = rest'

theorem startsAbove_siblings {depth : Nat} {rest : List (Nat × α)} (h : StartsAbove depth rest)
    (cs : List (Rose α)) : StartsAbove (depth + 1) (cs.flatMap (depths (depth + 1)) ++ rest) := by
  cases cs with
  | nil =>
    intro x hx
    have := h x hx
    omega
  | cons c cs =>
    intro x hx
    rw [head?_siblings, Option.mem_some_iff] at hx
    rw [← hx]

/-- What lies less deep is not the start of further siblings. -/
theorem not_startsAbove_siblings {depth : Nat} {c : Rose α} {cs : List (Rose α)}
    {rest : List (Nat × α)} :
    ¬StartsAbove depth ((c :: cs).flatMap (depths (depth + 1)) ++ rest) := by
  intro h
  have : depth + 1 ≤ depth := h _ (head?_siblings (depth + 1) c cs rest)
  omega

theorem Delimited.siblings {depth : Nat} {cs : List (Rose α)}
    (hcs : ∀ c ∈ cs, c.Delimited (depth + 1)) : ∀ {ds : List (Rose α)} {rest rest' : List (Nat × α)},
    StartsAbove depth rest → StartsAbove depth rest' →
      cs.flatMap (depths (depth + 1)) ++ rest = ds.flatMap (depths (depth + 1)) ++ rest' →
      cs = ds ∧ rest = rest' := by
  induction cs with
  | nil =>
    intro ds rest rest' hrest hrest' h
    cases ds with
    | nil => exact ⟨rfl, h⟩
    | cons d ds =>
      rw [List.flatMap_nil, List.nil_append] at h
      rw [h] at hrest
      exact absurd hrest not_startsAbove_siblings
  | cons c cs ih =>
    intro ds rest rest' hrest hrest' h
    cases ds with
    | nil =>
      rw [List.flatMap_nil, List.nil_append] at h
      rw [← h] at hrest'
      exact absurd hrest' not_startsAbove_siblings
    | cons d ds =>
      rw [List.flatMap_cons, List.flatMap_cons, List.append_assoc, List.append_assoc] at h
      obtain ⟨rfl, hafter⟩ := hcs c List.mem_cons_self (startsAbove_siblings hrest cs)
        (startsAbove_siblings hrest' ds) h
      obtain ⟨rfl, rfl⟩ := ih (fun c hc => hcs c (List.mem_cons_of_mem _ hc)) hrest hrest' hafter
      exact ⟨rfl, rfl⟩

theorem delimited (t : Rose α) : ∀ depth, t.Delimited depth := by
  induction t using induct with
  | node a cs ih =>
    intro depth u rest rest' hrest hrest' h
    cases u with
    | node b ds =>
      rw [depths_node, depths_node, List.cons_append, List.cons_append, List.cons.injEq,
        Prod.mk.injEq] at h
      obtain ⟨⟨-, rfl⟩, hbelow⟩ := h
      obtain ⟨rfl, rfl⟩ := Delimited.siblings (fun c hc => ih c hc (depth + 1)) hrest hrest' hbelow
      exact ⟨rfl, rfl⟩

/-- **The depths of the nodes determine the tree.** -/
theorem eq_of_depths {t u : Rose α} (h : t.depths 0 = u.depths 0) : t = u := by
  have hnil : StartsAbove 0 ([] : List (Nat × α)) := fun x hx => by simp at hx
  exact (delimited t 0 hnil hnil (by rw [h])).1

/-! ## Height -/

/-- The number of nodes on the longest path downwards from the root. -/
def height : Rose α → Nat := fold fun _ heights => heights.foldr max 0 + 1

theorem height_node (a : α) (cs : List (Rose α)) :
    (node a cs).height = (cs.map height).foldr max 0 + 1 := fold_node _ a cs

theorem height_pos (r : Rose α) : 0 < r.height := by
  cases r with
  | node a cs =>
    rw [height_node]
    exact Nat.succ_pos _

theorem foldr_max_le_iff {l : List Nat} {n : Nat} : l.foldr max 0 ≤ n ↔ ∀ x ∈ l, x ≤ n := by
  induction l with
  | nil => simp
  | cons x l ih => rw [List.foldr_cons, Nat.max_le, ih, List.forall_mem_cons]

theorem le_foldr_max {l : List Nat} {x : Nat} (h : x ∈ l) : x ≤ l.foldr max 0 :=
  foldr_max_le_iff.1 (Nat.le_refl _) x h

theorem foldr_max_append (l k : List Nat) :
    (l ++ k).foldr max 0 = max (l.foldr max 0) (k.foldr max 0) := by
  induction l with
  | nil => simp
  | cons x l ih => rw [List.cons_append, List.foldr_cons, ih, List.foldr_cons, Nat.max_assoc]

theorem foldr_max_mem {l : List Nat} (h : l ≠ []) : l.foldr max 0 ∈ l := by
  induction l with
  | nil => exact absurd rfl h
  | cons x l ih =>
    rw [List.foldr_cons]
    by_cases hl : l = []
    · simp [hl]
    · rcases Nat.le_total x (l.foldr max 0) with hle | hle
      · rw [Nat.max_eq_right hle]
        exact List.mem_cons_of_mem _ (ih hl)
      · rw [Nat.max_eq_left hle]
        exact List.mem_cons_self

/-- The greatest of some numbers is also that of others, if each of either is
at most one of the other. -/
theorem foldr_max_congr {l k : List Nat} (hl : ∀ x ∈ l, ∃ y ∈ k, x ≤ y)
    (hk : ∀ y ∈ k, ∃ x ∈ l, y ≤ x) : l.foldr max 0 = k.foldr max 0 := by
  refine Nat.le_antisymm (foldr_max_le_iff.2 fun x hx => ?_) (foldr_max_le_iff.2 fun y hy => ?_)
  · obtain ⟨y, hy, hxy⟩ := hl x hx
    exact hxy.trans (le_foldr_max hy)
  · obtain ⟨x, hx, hyx⟩ := hk y hy
    exact hyx.trans (le_foldr_max hx)

theorem height_lt_of_mem (a : α) {c : Rose α} {cs : List (Rose α)} (h : c ∈ cs) :
    c.height < (node a cs).height := by
  rw [height_node]
  exact Nat.lt_succ_of_le (le_foldr_max (List.mem_map_of_mem h))

theorem height_le_iff (a : α) (cs : List (Rose α)) (n : Nat) :
    (node a cs).height ≤ n + 1 ↔ ∀ c ∈ cs, c.height ≤ n := by
  rw [height_node, Nat.add_le_add_iff_right, foldr_max_le_iff, List.forall_mem_map]

/-- A tree whose root is node `depth` on its path reaches no further than `n`,
if neither the root nor a tree below it does. -/
theorem depth_add_height_le_iff (a : α) (cs : List (Rose α)) (depth n : Nat) :
    depth + (node a cs).height ≤ n + 1 ↔
      depth ≤ n ∧ ∀ c ∈ cs, depth + 1 + c.height ≤ n + 1 := by
  by_cases hle : depth ≤ n
  · obtain ⟨m, rfl⟩ := Nat.exists_eq_add_of_le hle
    rw [Nat.add_assoc, Nat.add_le_add_iff_left, height_le_iff]
    simp only [hle, true_and]
    exact forall₂_congr fun c _ => by omega
  · have := height_pos (node a cs)
    exact iff_of_false (by omega) fun h => hle h.1

/-- Siblings, if there are any, are one level higher than what stands below
them. -/
theorem height_siblings {cs : List (Rose α)} (h : cs ≠ []) :
    (cs.map height).foldr max 0 = ((cs.flatMap children).map height).foldr max 0 + 1 := by
  induction cs with
  | nil => exact absurd rfl h
  | cons c cs ih =>
    cases c with
    | node a ds =>
      by_cases hcs : cs = []
      · simp [hcs, height_node, children]
      · rw [List.map_cons, List.foldr_cons, ih hcs, height_node, List.flatMap_cons, children,
          List.map_append, foldr_max_append, Nat.add_max_add_right]

end GrammarExplorer.Rose
