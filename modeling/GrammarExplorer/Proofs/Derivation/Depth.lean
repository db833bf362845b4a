/-
How deep a built tree is.

A path downwards from a category is a chain of categories each of which
mentions the next (`IsChain`); two nodes for each step of the chain, and one
or two where it ends (`chainDepth`). Every path is such a chain, since what is
under way on it is not expanded again (`exists_chain_height`). And every chain
is a path of the full expansion; that it comes out as deep in the tree, where
most of the places it could run through may be marked leaves, is because a
marked argument stands unmarked beside the mark (`height_expanded`).
-/
import GrammarExplorer.Proofs.Derivation.Reachability
import GrammarExplorer.Proofs.Derivation.StackWalk
import Mathlib.Data.List.Perm.Subperm
import Mathlib.Order.Bounds.Defs

namespace GrammarExplorer

/-! ## Height of an expansion -/

namespace Expansion

open Rose (foldr_max_congr)
open Builder (marks argumentRow functionTrees)

variable {g : AbstractGrammar}

/-- A mark makes an expansion no higher. -/
theorem height_expand_le (visiting : List String) (category : String) (shared : Bool) :
    (expand g visiting category shared).height ≤ (expand g visiting category false).height := by
  cases shared with
  | false => exact Nat.le_refl _
  | true =>
    rw [expand_leaf (by simp), Rose.height_node]
    exact Rose.height_pos _

/-- An expanded category is two levels higher than its arguments, as if none
of them were marked. -/
theorem height_expanded {visiting : List String} {category : String} (hv : category ∉ visiting)
    (hf : g.hasFunctions category = true) :
    (expand g visiting category false).height
      = ((argumentRow g category).map fun a =>
          (expand g (category :: visiting) a false).height).foldr max 0 + 2 := by
  have hne : functionTrees g (category :: visiting) category ≠ [] := by
    simpa [functionTrees] using Builder.choices_ne_nil hf
  rw [Builder.expand_expanded hv hf, Rose.height_node, Rose.height_siblings hne,
    Builder.flatMap_children_functionTrees, ← Builder.map_fst_marks, List.map_map, List.map_map]
  refine congrArg (· + 2) (foldr_max_congr (fun x hx => ?_) fun y hy => ?_)
  · obtain ⟨a, ha, rfl⟩ := List.mem_map.1 hx
    exact ⟨_, List.mem_map_of_mem ha, height_expand_le _ a.1 a.2⟩
  · obtain ⟨a, ha, rfl⟩ := List.mem_map.1 hy
    exact ⟨_, List.mem_map_of_mem (Builder.unmarked_mem ha), Nat.le_refl _⟩

/-- Leaving repeated arguments unexpanded makes no tree lower. -/
theorem height_expandFully (visiting : List String) (category : String) (shared : Bool) :
    shared = false → (expandFully g visiting category).height
      = (expand g visiting category shared).height := by
  induction visiting, category, shared using Expansion.induct (g := g) with
  | leaf visiting category shared hleaf =>
    rintro rfl
    rw [expand_leaf hleaf, expandFully, dif_neg fun h => hleaf ⟨rfl, h.1, h.2⟩]
  | expanded visiting category hv hf ih =>
    intro _
    have hne : ((g.producers category).map fun f => Rose.node (⟨f.name, .function, false⟩ : Role)
        (f.arguments.map fun a => expandFully g (category :: visiting) a)) ≠ [] :=
      mt List.map_eq_nil_iff.1 (AbstractGrammar.producers_ne_nil hf)
    rw [height_expanded hv hf, expandFully, dif_pos ⟨hv, hf⟩, Rose.height_node,
      Rose.height_siblings hne, List.flatMap_map, argumentRow, List.map_flatMap, List.map_flatMap]
    refine congrArg (fun l : List Nat => l.foldr max 0 + 2) (List.flatMap_congr fun f _ => ?_)
    rw [Rose.children, List.map_map]
    exact List.map_congr_left fun a _ => ih a false rfl

end Expansion

/-! ## Chains -/

namespace AbstractGrammar

open Expansion (expand height_expanded expand_leaf)
open Rose (le_foldr_max foldr_max_mem)

/-- Categories each of which mentions the next, from `category` on. All but
the last are different from one another, and not among those that are under
way. -/
structure IsChain (g : AbstractGrammar) (visiting : List String) (category : String)
    (earlier : List String) (last : String) : Prop where
  starts : (earlier ++ [last]).head? = some category
  mentions : List.IsChain g.Mentions (earlier ++ [last])
  distinct : earlier.Nodup
  apart : ∀ c ∈ earlier, c ∉ visiting

/-- The nodes on the way down a chain: each category with a function that
mentions the next, the last one, and a function of it if it is expanded in its
turn. -/
def chainDepth (g : AbstractGrammar) (visiting earlier : List String) (last : String) : Nat :=
  2 * earlier.length + 1 +
    if last ∉ earlier ∧ last ∉ visiting ∧ g.hasFunctions last = true then 1 else 0

/-- The categories that functions have for their results. -/
def results (g : AbstractGrammar) : List String := (g.functions.map (·.result)).eraseDups

variable {g : AbstractGrammar} {visiting earlier : List String} {category first last : String}

theorem Mentions.hasFunctions {argument : String} (h : g.Mentions category argument) :
    g.hasFunctions category = true := by
  obtain ⟨f, hf, -⟩ := h
  exact hasFunctions_of_mem hf

theorem mem_argumentRow {argument : String} :
    argument ∈ Builder.argumentRow g category ↔ g.Mentions category argument := by
  rw [Builder.argumentRow, List.mem_flatMap]
  rfl

theorem isChain_nil : g.IsChain visiting category [] last ↔ last = category := by
  constructor
  · intro h
    simpa using h.starts
  · rintro rfl
    exact ⟨rfl, .singleton _, .nil, by simp⟩

/-- A chain goes on with a chain from what its first category mentions, while
that one is under way too. -/
theorem isChain_cons : g.IsChain visiting category (first :: earlier) last ↔
    first = category ∧ category ∉ visiting ∧
      ∃ argument, g.Mentions category argument ∧
        g.IsChain (category :: visiting) argument earlier last := by
  constructor
  · rintro ⟨hstarts, hmentions, hdistinct, hapart⟩
    obtain rfl : first = category := by simpa using hstarts
    obtain ⟨hfirst, hdistinct⟩ := List.nodup_cons.1 hdistinct
    obtain ⟨argument, hargument⟩ : ∃ a, (earlier ++ [last]).head? = some a := by
      cases earlier <;> simp
    obtain ⟨rest, hrest⟩ := List.head?_eq_some_iff.1 hargument
    rw [List.cons_append, hrest, List.isChain_cons_cons] at hmentions
    refine ⟨rfl, hapart _ List.mem_cons_self, argument, hmentions.1, hargument,
      hrest ▸ hmentions.2, hdistinct, fun c hc => ?_⟩
    rw [List.mem_cons, not_or]
    exact ⟨fun hself => hfirst (hself ▸ hc), hapart c (List.mem_cons_of_mem _ hc)⟩
  · rintro ⟨rfl, hv, argument, hmention, hstarts, hmentions, hdistinct, hapart⟩
    obtain ⟨rest, hrest⟩ := List.head?_eq_some_iff.1 hstarts
    refine ⟨rfl, ?_, List.nodup_cons.2 ⟨fun hc => hapart _ hc List.mem_cons_self, hdistinct⟩,
      fun c hc => ?_⟩
    · rw [List.cons_append, hrest, List.isChain_cons_cons]
      exact ⟨hmention, hrest ▸ hmentions⟩
    · rcases List.mem_cons.1 hc with rfl | hc
      · exact hv
      · exact fun hmem => hapart c hc (List.mem_cons_of_mem _ hmem)

theorem chainDepth_cons :
    g.chainDepth visiting (category :: earlier) last
      = g.chainDepth (category :: visiting) earlier last + 2 := by
  have hopen : (last ∉ category :: earlier ∧ last ∉ visiting ∧ g.hasFunctions last = true) ↔
      (last ∉ earlier ∧ last ∉ category :: visiting ∧ g.hasFunctions last = true) := by
    simp only [List.mem_cons, not_or]
    tauto
  simp only [chainDepth, hopen, List.length_cons]
  omega

/-- No chain goes deeper than the expansion. -/
theorem IsChain.chainDepth_le (h : g.IsChain visiting category earlier last) :
    g.chainDepth visiting earlier last ≤ (expand g visiting category false).height := by
  induction earlier generalizing visiting category with
  | nil =>
    obtain rfl := isChain_nil.1 h
    rw [chainDepth]
    split
    · next hopen =>
      rw [height_expanded hopen.2.1 hopen.2.2, List.length_nil]
      omega
    · exact Rose.height_pos _
  | cons first earlier ih =>
    obtain ⟨rfl, hv, argument, hmention, hrest⟩ := isChain_cons.1 h
    have hbelow := le_foldr_max (List.mem_map_of_mem
      (f := fun a => (expand g (first :: visiting) a false).height) (mem_argumentRow.2 hmention))
    rw [chainDepth_cons, height_expanded hv hmention.hasFunctions]
    exact Nat.add_le_add_right ((ih hrest).trans hbelow) 2

/-- One goes as deep: the first steps lead to the highest of the arguments,
and from there it goes on in the same way. -/
theorem exists_chain_height (visiting : List String) (category : String) (shared : Bool) :
    shared = false → ∃ earlier last, g.IsChain visiting category earlier last ∧
      (expand g visiting category shared).height = g.chainDepth visiting earlier last := by
  induction visiting, category, shared using Expansion.induct (g := g) with
  | leaf visiting category shared hleaf =>
    rintro rfl
    refine ⟨[], category, isChain_nil.2 rfl, ?_⟩
    rw [expand_leaf hleaf, Rose.height_node, chainDepth,
      if_neg fun h => hleaf ⟨rfl, h.2.1, h.2.2⟩]
    rfl
  | expanded visiting category hv hf ih =>
    intro _
    rw [height_expanded hv hf]
    by_cases hnone : Builder.argumentRow g category = []
    · refine ⟨[], category, isChain_nil.2 rfl, ?_⟩
      rw [hnone, chainDepth, if_pos ⟨List.not_mem_nil, hv, hf⟩]
      rfl
    · obtain ⟨argument, hargument, hmax⟩ := List.mem_map.1
        (foldr_max_mem (mt List.map_eq_nil_iff.1 hnone))
      obtain ⟨earlier, last, hchain, hheight⟩ := ih argument false rfl
      refine ⟨category :: earlier, last,
        isChain_cons.2 ⟨rfl, hv, argument, mem_argumentRow.1 hargument, hchain⟩, ?_⟩
      rw [← hmax, hheight, chainDepth_cons]

theorem mem_results : category ∈ g.results ↔ g.hasFunctions category = true := by
  simp [results, hasFunctions]

/-- Only a category with functions mentions another. -/
theorem IsChain.mem_results (h : g.IsChain visiting category earlier last) :
    ∀ c ∈ earlier, c ∈ g.results := by
  induction earlier generalizing visiting category with
  | nil => simp
  | cons first earlier ih =>
    obtain ⟨rfl, -, argument, hmention, hrest⟩ := isChain_cons.1 h
    intro c hc
    rcases List.mem_cons.1 hc with rfl | hc
    · exact AbstractGrammar.mem_results.2 hmention.hasFunctions
    · exact ih hrest c hc

/-- A chain comes to each result category once at most before it ends. -/
theorem IsChain.chainDepth_le_results (h : g.IsChain visiting category earlier last) :
    g.chainDepth visiting earlier last ≤ 2 * g.results.length + 1 := by
  rw [chainDepth]
  split
  · next hopen =>
    have hdistinct : (last :: earlier).Nodup := List.nodup_cons.2 ⟨hopen.1, h.distinct⟩
    have hsub : last :: earlier ⊆ g.results := List.cons_subset.2
      ⟨AbstractGrammar.mem_results.2 hopen.2.2, h.mem_results⟩
    have hle := (hdistinct.subperm hsub).length_le
    rw [List.length_cons] at hle
    omega
  · have hle := (h.distinct.subperm h.mem_results).length_le
    omega

end AbstractGrammar

namespace DerivationTree

/-- **The depth of a built tree.** For every grammar and every category, the
tree that the machine builds is as deep as the longest chain of categories from
there on: each mentions the next, and all but the last are different. It counts
two nodes for each of these and one for the last, and one more if the last is
another category still and has functions. So a tree is never deeper than twice
the number of result categories and one; and it is as deep as the tree in which
repeated arguments are expanded again. A walk with a stack comes to the same
depth when it has seen every node once. -/
theorem depth_build (g : AbstractGrammar) (category : String) :
    let t := (build g category).tree
    IsGreatest {d | ∃ earlier last, g.IsChain [] category earlier last ∧
        d = g.chainDepth [] earlier last} t.depth ∧
      t.depth ≤ 2 * g.results.length + 1 ∧
      t.depth = (ofRose (Expansion.expandFully g [] category)).depth ∧
      t.depthTurns t.size 0 [(root, 1)] = (t.depth, []) := by
  intro t
  have hdepth : t.depth = (Expansion.ofCategory g category).height := by
    rw [show t = _ from tree_build g category, depth_ofRose]
  obtain ⟨earlier, last, hchain, hheight⟩ :=
    AbstractGrammar.exists_chain_height (g := g) [] category false rfl
  refine ⟨⟨⟨earlier, last, hchain, hdepth.trans hheight⟩, ?_⟩, ?_, ?_, ?_⟩
  · rintro d ⟨earlier, last, hchain, rfl⟩
    rw [hdepth]
    exact hchain.chainDepth_le
  · rw [hdepth, Expansion.ofCategory, hheight]
    exact hchain.chainDepth_le_results
  · rw [hdepth, depth_ofRose, Expansion.height_expandFully [] category false rfl,
      Expansion.ofCategory]
  · rw [show t = _ from tree_build g category]
    exact depthTurns_ofRose _

end DerivationTree

end GrammarExplorer
