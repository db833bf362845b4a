/-
The steps of the machine one by one: how many there are, and what the path is
before each of them.

A tree only grows, and a node keeps what it stands for and its parent
(`links_push`); so what is above a node is settled when the node is added. The
tasks ahead are in order (`InOrder`): a node is to be added below the
categories on the path that there will be, and a category is left when it is
the last one on the path. Every step keeps them so (`Consistent.step`). How
many steps there are is what `Builder.ahead` says at the start, and can be
read off the finished table (`work_eq`).
-/
import GrammarExplorer.Proofs.Derivation.Ancestors

namespace GrammarExplorer

namespace DerivationTree

/-! ## Trees that grow -/

/-- What never changes of the nodes: what each stands for, and its parent. -/
def links (t : DerivationTree) : List (Role × Option Nat) :=
  t.nodes.toList.map fun n => (roleOf n, n.parent)

theorem getElem?_links (t : DerivationTree) (id : Nat) :
    t.links[id]? = (t.node? id).map fun n => (roleOf n, n.parent) := by
  rw [links, List.getElem?_map, node?_eq]

theorem getElem?_links_eq_some_iff {t : DerivationTree} {id : Nat} {role : Role}
    {parent : Option Nat} : t.links[id]? = some (role, parent) ↔
      ∃ n, t.node? id = some n ∧ roleOf n = role ∧ n.parent = parent := by
  rw [getElem?_links, Option.map_eq_some_iff]
  simp only [Prod.mk.injEq]

theorem parent?_eq_links (t : DerivationTree) (id : Nat) :
    t.parent? id = t.links[id]?.bind (·.2) := by
  rw [getElem?_links, parent?]
  cases t.node? id <;> rfl

theorem role_eq_links (t : DerivationTree) (id : Nat) :
    (t.node? id).map roleOf = t.links[id]?.map (·.1) := by
  rw [getElem?_links]
  cases t.node? id <;> rfl

theorem length_links (t : DerivationTree) : t.links.length = t.size := by
  rw [links, List.length_map, size_eq_length]

theorem map_links_adopt (rows : List Node) (parent : Option Nat) (children : List Nat) :
    (adopt rows parent children).map (fun n => (roleOf n, n.parent))
      = rows.map fun n => (roleOf n, n.parent) := by
  cases parent with
  | none => rfl
  | some p =>
    refine List.ext_getElem? fun i => ?_
    rw [adopt, List.getElem?_map, List.getElem?_modify, List.getElem?_map]
    cases rows[i]? with
    | none => rfl
    | some n => by_cases hp : p = i <;> simp [hp, roleOf]

theorem links_push (t : DerivationTree) (n : Node) :
    (t.push n).links = t.links ++ [(roleOf n, n.parent)] := by
  rw [links, toList_push, List.map_append, map_links_adopt, links, List.map_singleton]

theorem size_push (t : DerivationTree) (n : Node) : (t.push n).size = t.size + 1 := by
  rw [← length_links, links_push, List.length_append, length_links, List.length_singleton]

section Grown

variable {t u : DerivationTree} (h : t.links <+: u.links) {id : Nat}

include h

theorem size_le_of_links : t.size ≤ u.size := by
  rw [← length_links, ← length_links]
  exact h.length_le

theorem getElem?_links_of_lt (hid : id < t.size) : u.links[id]? = t.links[id]? := by
  obtain ⟨more, hmore⟩ := h
  rw [← hmore, List.getElem?_append_left (by rwa [length_links])]

theorem parent?_of_lt (hid : id < t.size) : u.parent? id = t.parent? id := by
  rw [parent?_eq_links, parent?_eq_links, getElem?_links_of_lt h hid]

theorem role_of_lt (hid : id < t.size) :
    (u.node? id).map roleOf = (t.node? id).map roleOf := by
  rw [role_eq_links, role_eq_links, getElem?_links_of_lt h hid]

theorem ancestors_of_lt (hid : id < t.size) : u.ancestors id = t.ancestors id := by
  induction id using Nat.strongRecOn with
  | ind id ih =>
    rw [ancestors, ancestors, parent?_of_lt h hid]
    cases t.parent? id with
    | none => rfl
    | some p =>
      by_cases hp : p < id
      · simp only [hp, if_true]
        rw [ih p hp (Nat.lt_trans hp hid)]
      · simp only [hp, if_false]

/-- What is above a node is settled when the node is there. -/
theorem categoriesAbove_of_lt (hid : id < t.size) :
    u.categoriesAbove id = t.categoriesAbove id := by
  rw [categoriesAbove, categoriesAbove, ancestors_of_lt h hid]
  refine List.filterMap_congr fun a ha => ?_
  rw [role_of_lt h (Nat.lt_trans (lt_of_mem_ancestors ha) hid)]

end Grown

/-- The names of the categories above a node that is below `parent`, the
nearest first. -/
def categoriesFrom (t : DerivationTree) : Option Nat → List String
  | none => []
  | some p => (((t.node? p).map roleOf).bind categoryName?).toList ++ t.categoriesAbove p

theorem categoriesAbove_eq {t : DerivationTree} {id : Nat} (h : ∀ p ∈ t.parent? id, p < id) :
    t.categoriesAbove id = t.categoriesFrom (t.parent? id) := by
  rw [categoriesAbove]
  cases hp : t.parent? id with
  | none => rw [ancestors_of_root hp, List.filterMap_nil, categoriesFrom]
  | some p =>
    rw [ancestors_of_parent hp (h p hp), List.filterMap_cons, categoriesFrom, categoriesAbove]
    cases ((t.node? p).map roleOf).bind categoryName? <;> rfl

/-- Whether a node can be added below `parent`, and has then the categories of
a path above it. -/
structure Takes (t : DerivationTree) (parent : Option Nat) (path : List String) : Prop where
  inside : ∀ p ∈ parent, p < t.size
  above : t.categoriesFrom parent = path

theorem Takes.grown {t u : DerivationTree} {parent : Option Nat} {path : List String}
    (h : t.Takes parent path) (hlinks : t.links <+: u.links) : u.Takes parent path := by
  refine ⟨fun p hp => Nat.lt_of_lt_of_le (h.inside p hp) (size_le_of_links hlinks), ?_⟩
  rw [← h.above]
  cases parent with
  | none => rfl
  | some p =>
    have hp := h.inside p rfl
    rw [categoriesFrom, categoriesFrom, role_of_lt hlinks hp, categoriesAbove_of_lt hlinks hp]

section Push

variable {t : DerivationTree} {parent : Option Nat} {path : List String} (name : String)
  (kind : NodeKind) (shared : Bool)

theorem getElem?_links_push (t : DerivationTree) (parent : Option Nat) :
    (t.push (.fresh name kind parent shared)).links[t.size]?
      = some (⟨name, kind, shared⟩, parent) := by
  rw [links_push, ← length_links, List.getElem?_concat_length]
  rfl

/-- A new node has the categories of the path above it. -/
theorem Takes.categoriesAbove_push (h : t.Takes parent path) :
    (t.push (.fresh name kind parent shared)).categoriesAbove t.size = path := by
  have hparent : (t.push (.fresh name kind parent shared)).parent? t.size = parent := by
    rw [parent?_eq_links, getElem?_links_push, Option.bind_some]
  rw [categoriesAbove_eq (by rw [hparent]; exact h.inside), hparent]
  exact (h.grown (links_push t _ ▸ List.prefix_append _ _)).above

/-- Below a new node there is the node itself besides, if it is a category. -/
theorem Takes.push (h : t.Takes parent path) :
    (t.push (.fresh name kind parent shared)).Takes (some t.size)
      ((categoryName? ⟨name, kind, shared⟩).toList ++ path) := by
  refine ⟨fun p hp => ?_, ?_⟩
  · obtain rfl := Option.some.inj hp
    rw [size_push]
    exact Nat.lt_succ_self _
  · rw [categoriesFrom, role_eq_links, getElem?_links_push, h.categoriesAbove_push]
    rfl

end Push

end DerivationTree

/-! ## Steps -/

namespace Builder

open DerivationTree

variable {g : AbstractGrammar} {b next : Builder}

/-- All that a step can do. -/
theorem step_cases (h : b.step g = some next) :
    (∃ name parent shared rest ds, b.tasks = .category name parent shared :: rest ∧
      next = ⟨b.tree.push (.fresh name .category parent shared), ds, b.path, rest⟩) ∨
    (∃ name parent rest, b.tasks = .category name parent false :: rest ∧ name ∉ b.path ∧
      next = ⟨b.tree.push (.fresh name .category parent false), b.diagnostics, name :: b.path,
        functionTasks g name b.tree.size ++ .leave name :: rest⟩) ∨
    (∃ name parent arguments rest, b.tasks = .function name parent arguments :: rest ∧
      next = ⟨b.tree.push (.fresh name .function (some parent) false), b.diagnostics, b.path,
        argumentTasks b.tree.size arguments ++ rest⟩) ∨
    (∃ category rest, b.tasks = .leave category :: rest ∧
      next = ⟨b.tree, b.diagnostics, b.path.erase category, rest⟩) := by
  unfold step at h
  split at h
  · cases h
  · next name parent shared rest htasks =>
    simp only [Option.some.injEq] at h
    split at h
    · exact .inl ⟨name, parent, shared, rest, _, htasks, h.symm⟩
    · next hopen =>
      obtain ⟨hshared, hp⟩ := not_or.1 hopen
      obtain rfl : shared = false := by simpa using hshared
      split at h
      · exact .inr (.inl ⟨name, parent, rest, htasks, hp, h.symm⟩)
      · exact .inl ⟨name, parent, false, rest, _, htasks, h.symm⟩
  · next name parent arguments rest htasks =>
    exact .inr (.inr (.inl ⟨name, parent, arguments, rest, htasks, (Option.some.inj h).symm⟩))
  · next category rest htasks =>
    exact .inr (.inr (.inr ⟨category, rest, htasks, (Option.some.inj h).symm⟩))

theorem exists_step_category {name : String} {parent : Option Nat} {shared : Bool}
    {rest : List Task} (h : b.tasks = .category name parent shared :: rest) :
    ∃ next, b.step g = some next ∧
      next.tree = b.tree.push (.fresh name .category parent shared) := by
  unfold step
  rw [h]
  refine ⟨_, rfl, ?_⟩
  split
  · rfl
  · split <;> rfl

theorem step_eq_none_iff : b.step g = none ↔ b.tasks = [] := by
  unfold step
  split <;> simp [*]

/-- The tree only grows. -/
theorem links_step (h : b.step g = some next) : b.tree.links <+: next.tree.links := by
  rcases step_cases h with ⟨name, parent, shared, rest, ds, -, rfl⟩ |
    ⟨name, parent, rest, -, -, rfl⟩ | ⟨name, parent, arguments, rest, -, rfl⟩ |
    ⟨category, rest, -, rfl⟩
  · exact links_push _ _ ▸ List.prefix_append _ _
  · exact links_push _ _ ▸ List.prefix_append _ _
  · exact links_push _ _ ▸ List.prefix_append _ _
  · exact List.prefix_rfl

/-- Whether the tasks are in order: each node is to be added where it has the
categories above it that are on the path by then, and a category is left when
it is the last on the path. -/
def InOrder (t : DerivationTree) : List String → List Task → Prop
  | path, [] => path = []
  | path, .category _ parent _ :: rest => t.Takes parent path ∧ InOrder t path rest
  | path, .function _ parent _ :: rest => t.Takes (some parent) path ∧ InOrder t path rest
  | path, .leave category :: rest => ∃ outer, path = category :: outer ∧ InOrder t outer rest

theorem InOrder.grown {t u : DerivationTree} (hlinks : t.links <+: u.links) :
    ∀ {tasks path}, InOrder t path tasks → InOrder u path tasks
  | [], _, h => h
  | .category _ _ _ :: _, _, ⟨htakes, hrest⟩ => ⟨htakes.grown hlinks, hrest.grown hlinks⟩
  | .function _ _ _ :: _, _, ⟨htakes, hrest⟩ => ⟨htakes.grown hlinks, hrest.grown hlinks⟩
  | .leave _ :: _, _, ⟨outer, hpath, hrest⟩ => ⟨outer, hpath, hrest.grown hlinks⟩

theorem inOrder_functionTasks {t : DerivationTree} {path : List String} {id : Nat}
    {rest : List Task} (h : t.Takes (some id) path) (hrest : InOrder t path rest)
    (category : String) : InOrder t path (functionTasks g category id ++ rest) := by
  rw [functionTasks]
  induction choices g category with
  | nil => exact hrest
  | cons c cs ih => exact ⟨h, ih⟩

theorem inOrder_argumentTasks {t : DerivationTree} {path : List String} {id : Nat}
    {rest : List Task} (h : t.Takes (some id) path) (hrest : InOrder t path rest)
    (arguments : List (String × Bool)) : InOrder t path (argumentTasks id arguments ++ rest) := by
  induction arguments with
  | nil => exact hrest
  | cons a as ih => exact ⟨h, ih⟩

/-- What holds before every step. -/
structure Consistent (b : Builder) : Prop where
  order : InOrder b.tree b.path b.tasks
  distinct : b.path.Nodup

theorem consistent_start (category : String) : Consistent (start category) :=
  ⟨⟨⟨by simp, rfl⟩, rfl⟩, .nil⟩

theorem Consistent.step (hb : Consistent b) (h : b.step g = some next) : Consistent next := by
  have horder := hb.order
  rcases step_cases h with ⟨name, parent, shared, rest, ds, htasks, rfl⟩ |
    ⟨name, parent, rest, htasks, hname, rfl⟩ | ⟨name, parent, arguments, rest, htasks, rfl⟩ |
    ⟨category, rest, htasks, rfl⟩ <;> rw [htasks] at horder
  · exact ⟨horder.2.grown (links_step h), hb.distinct⟩
  · have hrest : InOrder _ (name :: b.path) (.leave name :: rest) :=
      ⟨b.path, rfl, horder.2.grown (links_step h)⟩
    exact ⟨inOrder_functionTasks (horder.1.push name .category false) hrest name,
      List.nodup_cons.2 ⟨hname, hb.distinct⟩⟩
  · exact ⟨inOrder_argumentTasks (horder.1.push name .function false)
      (horder.2.grown (links_step h)) arguments, hb.distinct⟩
  · obtain ⟨outer, hpath, hrest⟩ := horder
    have hleft : b.path.erase category = outer := by rw [hpath, List.erase_cons_head]
    refine ⟨?_, hb.distinct.erase category⟩
    simp only [hleft]
    exact hrest

/-! ## Runs -/

/-- The machine after so many steps, if it takes so many. -/
def after (g : AbstractGrammar) : Nat → Builder → Option Builder
  | 0, b => some b
  | steps + 1, b => (b.step g).bind (after g steps)

section After

variable {steps : Nat} {last : Builder}

/-- What every step keeps, any number of them keeps. -/
theorem after_keeps {P : Builder → Prop}
    (hstep : ∀ b next, b.step g = some next → P b → P next) (h : after g steps b = some last)
    (hb : P b) : P last := by
  induction steps generalizing b with
  | zero =>
    cases h
    exact hb
  | succ steps ih =>
    obtain ⟨next, hnext, hlast⟩ := Option.bind_eq_some_iff.1 h
    exact ih hlast (hstep b next hnext hb)

theorem consistent_after {category : String} (h : after g steps (start category) = some last) :
    Consistent last :=
  after_keeps (fun _ _ hnext hb => hb.step hnext) h (consistent_start category)

theorem ahead_after (h : after g steps b = some last) : last.ahead g + steps = b.ahead g := by
  induction steps generalizing b with
  | zero =>
    cases h
    rfl
  | succ steps ih =>
    obtain ⟨next, hnext, hlast⟩ := Option.bind_eq_some_iff.1 h
    have hrest := ih hlast
    have hfirst := ahead_step hnext
    omega

theorem run_after (h : after g steps b = some last) : b.run g = last.run g := by
  induction steps generalizing b with
  | zero =>
    cases h
    rfl
  | succ steps ih =>
    obtain ⟨next, hnext, hlast⟩ := Option.bind_eq_some_iff.1 h
    exact (run_of_step hnext).trans (ih hlast)

end After

theorem run_of_stuck (h : b.step g = none) : b.run g = b := by
  rw [run]
  split
  · rfl
  · next next hnext =>
    rw [h] at hnext
    cases hnext

theorem ahead_of_stuck (h : b.step g = none) : b.ahead g = 0 := by
  rw [ahead, step_eq_none_iff.1 h, aheadOn]

/-- The machine stops after as many steps as are ahead, for want of tasks. -/
theorem after_ahead (g : AbstractGrammar) (b : Builder) :
    after g (b.ahead g) b = some (b.run g) ∧ (b.run g).step g = none := by
  generalize hsteps : b.ahead g = steps
  induction steps generalizing b with
  | zero =>
    cases hnext : b.step g with
    | none =>
      rw [run_of_stuck hnext]
      exact ⟨rfl, hnext⟩
    | some next =>
      have := ahead_step hnext
      omega
  | succ steps ih =>
    cases hnext : b.step g with
    | none =>
      have := ahead_of_stuck hnext
      omega
    | some next =>
      have hahead := ahead_step hnext
      obtain ⟨hafter, hstuck⟩ := ih next (by omega)
      rw [run_of_step hnext, after, hnext]
      exact ⟨hafter, hstuck⟩

theorem links_run (g : AbstractGrammar) (b : Builder) :
    b.tree.links <+: (b.run g).tree.links :=
  after_keeps (P := fun next => b.tree.links <+: next.tree.links)
    (fun _ _ hnext hlinks => hlinks.trans (links_step hnext)) (after_ahead g b).1 List.prefix_rfl

end Builder

namespace DerivationTree

open Expansion (work workAll)

/-- Whether a node is a category that was expanded. -/
def isExpanded (n : Node) : Bool := n.kind = .category && n.hasChildren

/-- The number of categories of a tree that were expanded. -/
def expandedCount (t : DerivationTree) : Nat := t.nodes.toList.countP isExpanded

theorem isExpanded_row (parent : Option Nat) (id : Nat) (role : Role) (cs : List (Rose Role)) :
    isExpanded (row parent id role cs) = true ↔ role.kind = .category ∧ cs.isEmpty = false := by
  cases cs <;> simp [isExpanded, row, Node.hasChildren, Rose.placed]

mutual

/-- It takes a step for each node of a tree, and one more for each category
that is expanded. -/
theorem work_eq (parent : Option Nat) (id : Nat) :
    ∀ r : Rose Role, work r = r.size + (rows parent id r).countP isExpanded
  | .node role cs => by
    rw [work, workAll_eq id (id + 1) cs, Rose.size, rows, List.countP_cons]
    simp only [isExpanded_row]
    omega

theorem workAll_eq (parent id : Nat) : ∀ cs : List (Rose Role),
    workAll cs = Rose.sizeAll cs + (rowsBelow parent id cs).countP isExpanded
  | [] => rfl
  | c :: cs => by
    rw [workAll, work_eq (some parent) id c, workAll_eq parent (id + c.size) cs, Rose.sizeAll,
      rowsBelow, List.countP_append]
    omega

end

theorem ahead_start (g : AbstractGrammar) (category : String) :
    (Builder.start category).ahead g
      = (build g category).tree.size + (build g category).tree.expandedCount := by
  rw [tree_build, size_ofRose, expandedCount, ofRose, ← work_eq none 0]
  rfl

/-- What there is after any step is there to stay. -/
theorem links_of_step {g : AbstractGrammar} {category : String} {steps : Nat} {b next : Builder}
    (hb : Builder.after g steps (Builder.start category) = some b) (hnext : b.step g = some next) :
    next.tree.links <+: (build g category).tree.links := by
  have hrun : (Builder.start category).run g = next.run g :=
    (Builder.run_after hb).trans (Builder.run_of_step hnext)
  rw [build, hrun]
  exact Builder.links_run g next

/-- **The steps of the machine.** For every grammar, recursive or not, and
every category, the machine stops: after one step for each node of the tree that
it leaves, and one more for each category that has children, there is no task
left, and the path is empty. Before every step no category is on the path twice;
and if the step is for a category, those on the path are the ones above the node
that is added, the nearest first: above it in the tree as it is then, and above
it in the tree that is left in the end, where it is the node of that category
and with that mark in the same place. -/
theorem build_steps (g : AbstractGrammar) (category : String) :
    let t := (build g category).tree
    let steps := t.size + t.expandedCount
    (∃ last, Builder.after g steps (Builder.start category) = some last ∧ last.step g = none ∧
      last.tasks = [] ∧ last.path = [] ∧ ⟨last.tree, last.diagnostics⟩ = build g category) ∧
    ∀ k b, Builder.after g k (Builder.start category) = some b →
      k ≤ steps ∧ b.path.Nodup ∧
      ∀ name parent shared rest, b.tasks = .category name parent shared :: rest →
        (b.tree.push (.fresh name .category parent shared)).categoriesAbove b.tree.size = b.path ∧
        t.categoriesAbove b.tree.size = b.path ∧
        ∃ n, t.node? b.tree.size = some n ∧ roleOf n = ⟨name, .category, shared⟩ ∧
          n.parent = parent := by
  intro t steps
  have hsteps : (Builder.start category).ahead g = steps := ahead_start g category
  obtain ⟨hafter, hstuck⟩ := Builder.after_ahead g (Builder.start category)
  have hdone := Builder.step_eq_none_iff.1 hstuck
  refine ⟨⟨_, hsteps ▸ hafter, hstuck, hdone, ?_, rfl⟩, fun k b hb => ⟨?_, ?_, ?_⟩⟩
  · have horder := (Builder.consistent_after hafter).order
    rwa [hdone] at horder
  · have := Builder.ahead_after hb
    omega
  · exact (Builder.consistent_after hb).distinct
  · intro name parent shared rest htasks
    have horder := (Builder.consistent_after hb).order
    rw [htasks] at horder
    have habove := horder.1.categoriesAbove_push name .category shared
    have hlink := getElem?_links_push name .category shared b.tree parent
    obtain ⟨next, hnext, hpushed⟩ := Builder.exists_step_category (g := g) htasks
    have hgrown : next.tree.links <+: t.links := links_of_step hb hnext
    rw [← hpushed] at habove hlink ⊢
    have hlt : b.tree.size < next.tree.size := by
      rw [hpushed, size_push]
      exact Nat.lt_succ_self _
    refine ⟨habove, (categoriesAbove_of_lt hgrown hlt).trans habove, ?_⟩
    exact getElem?_links_eq_some_iff.1 ((getElem?_links_of_lt hgrown hlt).trans hlink)

end DerivationTree

end GrammarExplorer
