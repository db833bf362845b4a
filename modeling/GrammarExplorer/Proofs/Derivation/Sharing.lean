/-
Nothing is lost where a repeated argument is left as a marked leaf.

The arguments of all functions below one category node are expanded with the
same categories under way, so what would stand below a marked leaf is what
stands below the unmarked argument of its name. Among the arguments of a
category node there is just one such, and it comes first
(`exists_original`). Put in the place of every marked leaf
(`unfoldShared`), it gives the expansion in which nothing is marked
(`expandFully`).
-/
import GrammarExplorer.Proofs.Derivation.Simulation
import Mathlib.Data.List.Basic

namespace GrammarExplorer

/-! ## Marks -/

namespace Builder

variable (g : AbstractGrammar) (category : String)

/-- The arguments of all functions below a category node, one function after
the other. -/
def argumentRow : List String := (g.producers category).flatMap (·.arguments)

/-- The same with their marks. -/
def marks : List (String × Bool) := (choices g category).flatMap (·.2)

theorem flatMap_markFunctions (seen : List String) (fs : List AbstractFunction) :
    (markFunctions seen fs).flatMap (·.2)
      = (fs.flatMap (·.arguments)).mapIdx fun i a =>
          (a, decide (a ∈ seen ++ (fs.flatMap (·.arguments)).take i)) := by
  induction fs generalizing seen with
  | nil => rfl
  | cons f fs ih =>
    rw [markFunctions, List.flatMap_cons, markArguments_eq, ih, List.flatMap_cons,
      List.mapIdx_append]
    congr 1
    · refine List.mapIdx_eq_mapIdx_iff.2 fun i hi => ?_
      rw [List.take_append_of_le_length (by omega)]
    · refine List.mapIdx_eq_mapIdx_iff.2 fun i hi => ?_
      simp only [List.take_append, List.mem_append, Nat.add_sub_cancel,
        List.take_of_length_le (Nat.le_add_left f.arguments.length i), or_left_comm, or_assoc]

/-- An argument is marked where it stands again. -/
theorem marks_getElem? (i : Nat) :
    (marks g category)[i]? = ((argumentRow g category)[i]?).map fun a =>
      (a, decide (a ∈ (argumentRow g category).take i)) := by
  rw [marks, choices, flatMap_markFunctions, List.getElem?_mapIdx]
  rfl

theorem map_fst_markArguments (seen as : List String) :
    (markArguments seen as).map (·.1) = as := by
  induction as generalizing seen with
  | nil => rfl
  | cons a as ih => rw [markArguments, List.map_cons, ih]

/-- Without their marks, the choices are the functions of the category. -/
theorem map_choices {β : Type} (f : String → List String → β) :
    (choices g category).map (fun choice => f choice.1 (choice.2.map (·.1)))
      = (g.producers category).map fun function => f function.name function.arguments := by
  rw [choices]
  generalize [] = seen
  induction g.producers category generalizing seen with
  | nil => rfl
  | cons function fs ih =>
    rw [markFunctions, List.map_cons, List.map_cons, ih, map_fst_markArguments]

end Builder

/-- A member of a list stands first in a place where it does not stand
before. -/
theorem idxOf_eq_of_not_mem_take {l : List String} {a : String} {i : Nat} (h : l[i]? = some a)
    (hi : a ∉ l.take i) : l.idxOf a = i := by
  have hmem : a ∈ l := List.mem_of_getElem? h
  have hle : a ∈ l.take (i + 1) := by
    rw [List.take_add_one, h]
    simp
  rw [List.mem_take_iff_idxOf_lt hmem] at hi hle
  omega

namespace Builder

variable {g : AbstractGrammar} {category : String}

theorem map_fst_marks : (marks g category).map (·.1) = argumentRow g category := by
  refine List.ext_getElem? fun i => ?_
  rw [List.getElem?_map, marks_getElem?, Option.map_map]
  exact Option.map_id_fun' ▸ rfl

/-- The unmarked argument of a name stands where the name stands first. -/
theorem idxOf_of_unmarked {i : Nat} {a : String} (h : (marks g category)[i]? = some (a, false)) :
    (argumentRow g category).idxOf a = i := by
  rw [marks_getElem?, Option.map_eq_some_iff] at h
  obtain ⟨b, hb, heq⟩ := h
  simp only [Prod.mk.injEq, decide_eq_false_iff_not] at heq
  obtain ⟨rfl, hnot⟩ := heq
  exact idxOf_eq_of_not_mem_take hb hnot

/-- A marked argument stands unmarked further ahead. -/
theorem exists_unmarked {i : Nat} {a : String} (h : (marks g category)[i]? = some (a, true)) :
    ∃ k < i, (marks g category)[k]? = some (a, false) := by
  rw [marks_getElem?, Option.map_eq_some_iff] at h
  obtain ⟨b, hb, heq⟩ := h
  simp only [Prod.mk.injEq, decide_eq_true_eq] at heq
  obtain ⟨rfl, hmem⟩ := heq
  have hrow : b ∈ argumentRow g category := List.mem_of_getElem? hb
  refine ⟨(argumentRow g category).idxOf b, (List.mem_take_iff_idxOf_lt hrow).1 hmem, ?_⟩
  rw [marks_getElem?, List.getElem?_idxOf hrow]
  simp [List.mem_take_iff_idxOf_lt hrow]

end Builder

/-! ## Unfolding -/

namespace Expansion

/-- The expansion of a category in which an argument that stands again is
expanded again. Only a category that is under way on its own path is cut. -/
def expandFully (g : AbstractGrammar) (visiting : List String) (category : String) : Rose Role :=
  if _h : category ∉ visiting ∧ g.hasFunctions category = true then
    .node ⟨category, .category, false⟩ <| (g.producers category).map fun f =>
      .node ⟨f.name, .function, false⟩ <| f.arguments.map fun argument =>
        expandFully g (category :: visiting) argument
  else .node ⟨category, .category, false⟩ []
termination_by free g visiting
decreasing_by exact free_cons_lt _h.1 _h.2

/-- Whether a node is the unmarked one of a name. -/
def isOriginal (name : String) (role : Role) : Bool := role.name == name && !role.shared

/-- The tree that stands for an argument below these functions: itself, or
the unmarked argument of its name if it is marked. -/
def resolve (functions : List (Rose Role)) (argument : Rose Role) : Rose Role :=
  if argument.label.shared then
    ((functions.flatMap Rose.children).find? fun a =>
      isOriginal argument.label.name a.label).getD argument
  else argument

theorem resolve_mem {functions : List (Rose Role)} {argument : Rose Role}
    (h : argument ∈ functions.flatMap Rose.children) :
    resolve functions argument ∈ functions.flatMap Rose.children := by
  unfold resolve
  split
  · cases hfind : (functions.flatMap Rose.children).find? fun a =>
        isOriginal argument.label.name a.label with
    | none => exact h
    | some a => exact List.mem_of_find?_eq_some hfind
  · exact h

/-- The tree of a category with the unmarked argument, unfolded in its turn,
in the place of every marked one. -/
def unfoldShared : Rose Role → Rose Role
  | .node role functions =>
    .node role <| functions.attach.map fun f =>
      .node f.1.label <| f.1.children.attach.map fun argument =>
        unfoldShared (resolve functions argument.1)
termination_by r => r.size
decreasing_by
  obtain ⟨⟨r, arguments⟩, hf, ha⟩ :=
    List.mem_flatMap.1 (resolve_mem (List.mem_flatMap.2 ⟨f.1, f.2, argument.2⟩))
  exact Nat.lt_trans (Rose.size_lt_of_mem ha) (Rose.size_lt_of_mem hf)

theorem unfoldShared_node (role : Role) (functions : List (Rose Role)) :
    unfoldShared (.node role functions)
      = .node role (functions.map fun f => .node f.label (f.children.map fun argument =>
          unfoldShared (resolve functions argument))) := by
  rw [unfoldShared]
  simp only [List.map_subtype, List.unattach_attach]

end Expansion

namespace Builder

variable {g : AbstractGrammar}

theorem children_functionTree (visiting : List String) (choice : String × List (String × Bool)) :
    (functionTree g visiting choice).children
      = choice.2.map fun a => Expansion.expand g visiting a.1 a.2 := rfl

/-- The arguments below an expanded category, one function after the
other. -/
theorem flatMap_children_functionTrees (visiting : List String) (category : String) :
    (functionTrees g visiting category).flatMap Rose.children
      = (marks g category).map fun a => Expansion.expand g visiting a.1 a.2 := by
  rw [functionTrees, List.flatMap_map, marks, List.map_flatMap]
  rfl

/-- What stands for an argument below an expanded category is the expansion
of that argument without a mark. -/
theorem resolve_expand {visiting : List String} {category : String} {a : String × Bool}
    (h : a ∈ marks g category) :
    Expansion.resolve (functionTrees g visiting category) (Expansion.expand g visiting a.1 a.2)
      = Expansion.expand g visiting a.1 false := by
  obtain ⟨name, shared⟩ := a
  rw [Expansion.resolve, Expansion.label_expand, flatMap_children_functionTrees]
  cases shared with
  | false => rfl
  | true =>
    obtain ⟨i, hi⟩ := List.mem_iff_getElem?.1 h
    obtain ⟨k, -, hk⟩ := exists_unmarked hi
    have hlabel : (fun t : Rose Role => Expansion.isOriginal name t.label)
        ∘ (fun a : String × Bool => Expansion.expand g visiting a.1 a.2)
        = fun a => a.1 == name && !a.2 := by
      funext a
      simp only [Function.comp_apply, Expansion.label_expand]
      rfl
    simp only [if_true, List.find?_map, hlabel]
    cases hfind : (marks g category).find? fun a => a.1 == name && !a.2 with
    | none =>
      have := List.find?_eq_none.1 hfind _ (List.mem_of_getElem? hk)
      simp at this
    | some m =>
      have hm := List.find?_some hfind
      simp only [Bool.and_eq_true, beq_iff_eq, Bool.not_eq_true'] at hm
      rw [Option.map_some, Option.getD_some, hm.1, hm.2]

end Builder

namespace Expansion

variable {g : AbstractGrammar}

/-- Unfolded, an expansion is the full expansion. -/
theorem unfoldShared_expand (visiting : List String) (category : String) (shared : Bool) :
    shared = false →
      unfoldShared (expand g visiting category shared) = expandFully g visiting category := by
  induction visiting, category, shared using Expansion.induct (g := g) with
  | leaf visiting category shared hleaf =>
    rintro rfl
    rw [expand_leaf hleaf, expandFully, dif_neg fun h => hleaf ⟨rfl, h.1, h.2⟩, unfoldShared_node]
    rfl
  | expanded visiting category hv hf ih =>
    intro _
    have hchoice : ∀ choice ∈ Builder.choices g category,
        (Builder.functionTree g (category :: visiting) choice).children.map (fun argument =>
          unfoldShared (resolve (Builder.functionTrees g (category :: visiting) category) argument))
        = (choice.2.map (·.1)).map (expandFully g (category :: visiting)) := by
      intro choice hmem
      rw [Builder.children_functionTree, List.map_map, List.map_map]
      refine List.map_congr_left fun a ha => ?_
      have hmark : a ∈ Builder.marks g category := List.mem_flatMap.2 ⟨choice, hmem, ha⟩
      rw [Function.comp_apply, Builder.resolve_expand hmark, ih a.1 false rfl]
      rfl
    rw [Builder.expand_expanded hv hf, unfoldShared_node, expandFully, dif_pos ⟨hv, hf⟩,
      ← Builder.map_choices g category fun name arguments =>
        Rose.node ⟨name, .function, false⟩ (arguments.map (expandFully g (category :: visiting)))]
    refine congrArg (Rose.node _) ?_
    generalize hresolve : resolve (Builder.functionTrees g (category :: visiting) category)
      = resolved at hchoice ⊢
    rw [Builder.functionTrees, List.map_map]
    refine List.map_congr_left fun choice hmem => ?_
    rw [Function.comp_apply, hchoice choice hmem]
    rfl

end Expansion

/-! ## Originals in the table -/

/-- The grandchildren of a node, each with its place. -/
def Rose.placedBelow {α : Type} (id : Nat) (cs : List (Rose α)) : List (Nat × Rose α) :=
  (placed (id + 1) cs).flatMap fun p => placed (p.1 + 1) p.2.children

namespace Rose

variable {α : Type}

theorem map_snd_placedBelow (id : Nat) (cs : List (Rose α)) :
    (placedBelow id cs).map (·.2) = cs.flatMap children := by
  rw [placedBelow, List.map_flatMap]
  simp only [map_snd_placed]
  rw [← List.flatMap_map (fun p : Nat × Rose α => p.2) children, map_snd_placed]

theorem pairwise_placedBelow (id : Nat) (cs : List (Rose α)) :
    (placedBelow id cs).Pairwise fun p q => p.1 < q.1 := by
  rw [placedBelow, List.pairwise_flatMap]
  constructor
  · intro p _
    refine (pairwise_placed _ _).imp fun {a b} h => ?_
    have := a.2.size_pos
    omega
  · refine (pairwise_placed _ _).imp fun {p q} h a ha b hb => ?_
    have ha := placed_bounds ha
    have hb := placed_bounds hb
    have := a.2.size_pos
    rw [size_eq] at h
    omega

end Rose

namespace DerivationTree

open Rose (placed placedBelow)
open Builder (marks functionTrees flatMap_children_functionTrees)

/-- The children of a node's children: below a category, the arguments of its
functions. -/
def grandchildren (t : DerivationTree) (id : Nat) : List Nat := (t.children id).flatMap t.children

/-- Whether `y` is the unmarked node of a name below the functions of a
category node. -/
def IsOriginal (t : DerivationTree) (category : Nat) (name : String) (y : Nat) : Prop :=
  y ∈ t.grandchildren category ∧ ∃ n, t.node? y = some n ∧ n.name = name ∧ n.shared = false

/-- Whether `x`, a node of the given name, stands below the functions of a
category node where just one unmarked node has that name, a category node that
comes first. -/
def HasOriginal (t : DerivationTree) (x : Nat) (name : String) : Prop :=
  ∃ function category n, t.parent? x = some function ∧ t.parent? function = some category ∧
    t.node? category = some n ∧ n.kind = .category ∧ x ∈ t.grandchildren category ∧
    ∃ y m, y < x ∧ t.node? y = some m ∧ m.kind = .category ∧
      ∀ z, t.IsOriginal category name z ↔ z = y

section Holds

variable {t : DerivationTree} {parent : Option Nat} {id : Nat} {r : Rose Role}

theorem Holds.grandchildren (h : t.Holds parent id r) :
    t.grandchildren id = (placedBelow id r.children).map (·.1) := by
  rw [DerivationTree.grandchildren, h.children, List.flatMap_map, placedBelow, List.map_flatMap]
  refine List.flatMap_congr fun p hp => ?_
  exact (h.child hp).children

theorem Holds.grandchild (h : t.Holds parent id r) {q : Nat × Rose Role}
    (hq : q ∈ placedBelow id r.children) : ∃ function,
      t.parent? function = some id ∧ t.Holds (some function) q.1 q.2 := by
  obtain ⟨p, hp, hq⟩ := List.mem_flatMap.1 hq
  exact ⟨p.1, (h.child hp).parent?, (h.child hp).child hq⟩

end Holds

theorem kind_placedBelow {g : AbstractGrammar} {visiting : List String} {category : String}
    {id : Nat} {q : Nat × Rose Role}
    (hq : q ∈ placedBelow id (functionTrees g visiting category)) :
    q.2.label.kind = .category := by
  have hmem := List.mem_map_of_mem (f := fun p : Nat × Rose Role => p.2) hq
  rw [Rose.map_snd_placedBelow, flatMap_children_functionTrees, List.mem_map] at hmem
  obtain ⟨a, -, ha⟩ := hmem
  rw [← ha, Expansion.label_expand]

/-- The name and the mark of the root of a tree. -/
def markOf (q : Nat × Rose Role) : String × Bool := (q.2.label.name, q.2.label.shared)

/-- Below an expanded category stand its arguments with their marks. -/
theorem map_markOf_placedBelow (g : AbstractGrammar) (visiting : List String) (category : String)
    (id : Nat) :
    (placedBelow id (functionTrees g visiting category)).map markOf = marks g category := by
  have hroot : (fun t : Rose Role => (t.label.name, t.label.shared))
      ∘ (fun a : String × Bool => Expansion.expand g visiting a.1 a.2) = fun a => a := by
    funext a
    simp only [Function.comp_apply, Expansion.label_expand]
  have hsnd : markOf = (fun t : Rose Role => (t.label.name, t.label.shared)) ∘ (·.2) := rfl
  rw [hsnd, ← List.map_map, Rose.map_snd_placedBelow, flatMap_children_functionTrees,
    List.map_map, hroot, List.map_id']

/-- Below an expanded category, a marked argument has just one unmarked one of
its name, which comes first. -/
theorem exists_original {g : AbstractGrammar} {visiting : List String} {category : String}
    {id : Nat} {q : Nat × Rose Role} (hq : q ∈ placedBelow id (functionTrees g visiting category))
    (hshared : q.2.label.shared = true) :
    ∃ y ∈ placedBelow id (functionTrees g visiting category), y.1 < q.1 ∧
      ∀ w ∈ placedBelow id (functionTrees g visiting category),
        (w.2.label.name = q.2.label.name ∧ w.2.label.shared = false) ↔ w = y := by
  have hsorted := Rose.pairwise_placedBelow id (functionTrees g visiting category)
  have hmarks := map_markOf_placedBelow g visiting category id
  generalize placedBelow id (functionTrees g visiting category) = args at *
  have hmark : ∀ {i : Nat} {w}, args[i]? = some w → (marks g category)[i]? = some (markOf w) := by
    intro i w hw
    rw [← hmarks, List.getElem?_map, hw]
    rfl
  obtain ⟨i, hi⟩ := List.mem_iff_getElem?.1 hq
  have hmarked : (marks g category)[i]? = some (q.2.label.name, true) := by
    rw [hmark hi, markOf, hshared]
  obtain ⟨k, hki, hk⟩ := Builder.exists_unmarked hmarked
  have hy := hk
  rw [← hmarks, List.getElem?_map, Option.map_eq_some_iff] at hy
  obtain ⟨y, hyk, hy⟩ := hy
  refine ⟨y, List.mem_of_getElem? hyk, ?_, ?_⟩
  · obtain ⟨hkl, rfl⟩ := List.getElem?_eq_some_iff.1 hyk
    obtain ⟨hil, rfl⟩ := List.getElem?_eq_some_iff.1 hi
    exact List.pairwise_iff_getElem.1 hsorted k i hkl hil hki
  · intro w hw
    obtain ⟨j, hj⟩ := List.mem_iff_getElem?.1 hw
    constructor
    · rintro ⟨hname, hunshared⟩
      have hjk : (marks g category)[j]? = some (q.2.label.name, false) := by
        rw [hmark hj, markOf, hname, hunshared]
      rw [← Builder.idxOf_of_unmarked hjk, Builder.idxOf_of_unmarked hk, hyk] at hj
      exact (Option.some.inj hj).symm
    · rintro rfl
      exact Prod.mk.inj hy

/-- A marked argument below an expanded category has its original in the
table. -/
theorem Holds.hasOriginal {t : DerivationTree} {parent : Option Nat} {id : Nat}
    {g : AbstractGrammar} {visiting : List String} {category : String}
    (h : t.Holds parent id
      (.node ⟨category, .category, false⟩ (functionTrees g visiting category)))
    {q : Nat × Rose Role} (hq : q ∈ placedBelow id (functionTrees g visiting category))
    (hshared : q.2.label.shared = true) : t.HasOriginal q.1 q.2.label.name := by
  have hplaces : t.grandchildren id
      = (placedBelow id (functionTrees g visiting category)).map (·.1) := h.grandchildren
  obtain ⟨f, hf, hqf⟩ := h.grandchild hq
  obtain ⟨y, hy, hyq, honly⟩ := exists_original hq hshared
  obtain ⟨_, -, hyf⟩ := h.grandchild hy
  refine ⟨f, id, _, hqf.parent?, hf, h.node?, rfl, ?_, y.1, _, hyq, hyf.node?,
    kind_placedBelow hy, fun z => ?_⟩
  · rw [hplaces]
    exact List.mem_map_of_mem hq
  · rw [IsOriginal, hplaces]
    constructor
    · rintro ⟨hz, n, hn, hname, hunshared⟩
      obtain ⟨w, hw, rfl⟩ := List.mem_map.1 hz
      obtain ⟨_, -, hwf⟩ := h.grandchild hw
      rw [hwf.node?] at hn
      cases hn
      rw [(honly w hw).1 ⟨hname, hunshared⟩]
    · rintro rfl
      obtain ⟨hname, hunshared⟩ := (honly y hy).2 rfl
      exact ⟨List.mem_map_of_mem hy, _, hyf.node?, hname, hunshared⟩

/-- A place below the root of an expanded category is that of a function or
within the expansion of an argument. -/
theorem exists_placed_functionTrees {g : AbstractGrammar} {visiting : List String} {role : Role}
    {category : String} {id x : Nat} (hx : id < x)
    (hx' : x < id + (Rose.node role (functionTrees g visiting category)).size) :
    ∃ p ∈ placed (id + 1) (functionTrees g visiting category), ∃ choice,
      Builder.functionTree g visiting choice = p.2 ∧
      (x = p.1 ∨ ∃ q ∈ placed (p.1 + 1) p.2.children, ∃ a : String × Bool,
        Expansion.expand g visiting a.1 a.2 = q.2 ∧ q.1 ≤ x ∧ x < q.1 + q.2.size) := by
  obtain rfl | ⟨p, hp, hpx, hpx'⟩ := Rose.eq_or_exists_placed _ (Nat.le_of_lt hx) hx'
  · exact absurd hx (Nat.lt_irrefl _)
  obtain ⟨choice, -, hchoice⟩ := List.mem_map.1 (Rose.snd_mem_of_placed hp)
  refine ⟨p, hp, choice, hchoice, ?_⟩
  obtain hself | ⟨q, hq, hqx, hqx'⟩ := Rose.eq_or_exists_placed _ hpx hpx'
  · exact .inl hself
  have hmem := Rose.snd_mem_of_placed hq
  rw [← hchoice, Builder.children_functionTree, List.mem_map] at hmem
  obtain ⟨a, -, ha⟩ := hmem
  exact .inr ⟨q, hq, a, ha, hqx, hqx'⟩

/-- Every marked node of an expansion below its root has its original in the
table. -/
theorem Holds.hasOriginal_expand {t : DerivationTree} {g : AbstractGrammar}
    (visiting : List String) (category : String) (shared : Bool) :
    ∀ {parent id}, t.Holds parent id (Expansion.expand g visiting category shared) →
      ∀ {x n}, id < x → x < id + (Expansion.expand g visiting category shared).size →
        t.node? x = some n → n.shared = true → t.HasOriginal x n.name := by
  induction visiting, category, shared using Expansion.induct (g := g) with
  | leaf visiting category shared hleaf =>
    intro parent id _ x n hx hx'
    rw [Expansion.expand_leaf hleaf, Rose.size, Rose.sizeAll] at hx'
    omega
  | expanded visiting category hv hf ih =>
    intro parent id h x n hx hx' hn hshared
    rw [Builder.expand_expanded hv hf] at h hx'
    obtain ⟨p, hp, choice, hchoice, rfl | ⟨q, hq, a, ha, hqx, hqx'⟩⟩ :=
      exists_placed_functionTrees hx hx'
    -- A function node is never marked.
    · rw [(h.child hp).node?, ← hchoice] at hn
      cases hn
      cases hshared
    have hargument := (h.child hp).child hq
    have hbelow : q ∈ placedBelow id (functionTrees g (category :: visiting) category) :=
      List.mem_flatMap.2 ⟨p, hp, hq⟩
    by_cases hxq : x = q.1
    · subst hxq
      rw [hargument.node?] at hn
      cases hn
      exact h.hasOriginal hbelow hshared
    · rw [← ha] at hargument hqx'
      exact ih a.1 a.2 hargument (by omega) hqx' hn hshared

/-- Every marked node of the tree of a category has its original. -/
theorem hasOriginal_ofCategory {g : AbstractGrammar} {category : String} {x : Nat} {n : Node}
    (hn : (ofRose (Expansion.ofCategory g category)).node? x = some n) (hshared : n.shared = true) :
    (ofRose (Expansion.ofCategory g category)).HasOriginal x n.name := by
  have h := holds_ofRose (Expansion.ofCategory g category)
  have hx := lt_size_of_node? hn
  rw [size_ofRose, ← Nat.zero_add (Rose.size _)] at hx
  by_cases hroot : x = 0
  · subst hroot
    rw [h.node?, Expansion.ofCategory, Expansion.label_expand] at hn
    cases hn
    cases hshared
  · exact h.hasOriginal_expand [] category false (Nat.pos_of_ne_zero hroot) hx hn hshared

/-- **Sharing loses nothing.** For every grammar and every category, put in
the place of each marked leaf of the tree that the machine builds the subtree
of its original, unfolded in its turn, and what comes out is the full
expansion, in which only a category under way on its own path is cut. The
original is always there: every marked node stands below the functions of a
category node, among whose arguments just one of that name is not marked, and
this one comes first in preorder. -/
theorem unfoldShared_build (g : AbstractGrammar) (category : String) :
    Expansion.unfoldShared (build g category).tree.read = Expansion.expandFully g [] category ∧
      ∀ x n, (build g category).tree.node? x = some n → n.shared = true →
        (build g category).tree.HasOriginal x n.name := by
  rw [tree_build, read_ofRose]
  exact ⟨Expansion.unfoldShared_expand [] category false rfl,
    fun x n hn hshared => hasOriginal_ofCategory hn hshared⟩

end DerivationTree

end GrammarExplorer
