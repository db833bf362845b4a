/-
What a node offers, held against the tree and against the history.

The offers of a node are made from its category, by way of the grammar, and
not from the tree. All the same the two agree in the mode of the abstract
names: an expanded category offers the functions that stand below it
(`map_name_children_expand`), and a leaf offers nothing just if nothing
produces its category, which the machine has remarked on when it came to the
first node of that category (`unknownCategory_mem_build`).
-/
import GrammarExplorer.Proofs.Derivation.Ancestors
import GrammarExplorer.Proofs.Grammar.Declaration
import GrammarExplorer.Proofs.Session.Diagnostics

namespace GrammarExplorer

/-- Below an expanded category stand its functions, in their order. -/
theorem Expansion.map_name_children_expand {g : AbstractGrammar} {visiting : List String}
    {category : String} {shared : Bool} (h : (expand g visiting category shared).children ≠ []) :
    (expand g visiting category shared).children.map (fun c => c.label.name)
      = g.functionsFor category := by
  obtain ⟨rfl, hv, hf⟩ := children_expand_ne_nil.1 h
  have hnames : (Builder.choices g category).map (·.1) = (g.producers category).map (·.name) :=
    Builder.map_choices g category fun name _ => name
  rw [Builder.expand_expanded hv hf, Rose.children, Builder.functionTrees, List.map_map,
    AbstractGrammar.functionsFor, ← hnames]
  rfl

namespace DerivationTree

theorem Holds.map_name_children {t : DerivationTree} {parent : Option Nat} {id : Nat}
    {r : Rose Role} (h : t.Holds parent id r) :
    (t.children id).map (fun c => (t.node? c).map (·.name))
      = r.children.map fun c => some c.label.name := by
  rw [h.children, List.map_map]
  have hchild : ∀ p ∈ Rose.placed (id + 1) r.children,
      (t.node? p.1).map (·.name) = some p.2.label.name := fun p hp => by
    rw [(h.child hp).node?]
    rfl
  calc (Rose.placed (id + 1) r.children).map (fun p => (t.node? p.1).map (·.name))
      = (Rose.placed (id + 1) r.children).map (fun p => some p.2.label.name) :=
        List.map_congr_left hchild
    _ = ((Rose.placed (id + 1) r.children).map (·.2)).map (fun c => some c.label.name) := by
        rw [List.map_map]
        rfl
    _ = r.children.map fun c => some c.label.name := by rw [Rose.map_snd_placed]

/-- In the tree of a category, an expanded category has its functions for
children. -/
theorem map_name_children_ofCategory {g : AbstractGrammar} {category : String} {x : Nat} {n : Node}
    (hn : (ofRose (Expansion.ofCategory g category)).node? x = some n)
    (hkind : n.kind = .category) (hne : n.children ≠ []) :
    n.children.map (fun c => ((ofRose (Expansion.ofCategory g category)).node? c).map (·.name))
      = (g.functionsFor n.name).map some := by
  rcases alternates_ofCategory hn with ⟨-, hexp, -⟩ | ⟨hfunction, -⟩
  · obtain ⟨parent, c, shared, h⟩ := hexp
    have hchildren := h.children
    have hnames := h.map_name_children
    rw [DerivationTree.children, hn, Option.map_some, Option.getD_some] at hchildren hnames
    rw [h.node?, Option.some.injEq] at hn
    have hexpanded : (Expansion.expand g _ c shared).children ≠ [] := fun hnil => by
      rw [hnil] at hchildren
      exact hne hchildren
    have hname : n.name = c := by
      rw [← hn, row, Expansion.label_expand]
    rw [hnames, hname, ← Expansion.map_name_children_expand hexpanded, List.map_map]
    rfl
  · rw [hkind] at hfunction
    cases hfunction

/-- The machine remarks on a category just if the category stands in the tree
and nothing produces it. -/
theorem unknownCategory_mem_build {g : AbstractGrammar} {category x : String} :
    .unknownCategory x ∈ (build g category).diagnostics ↔
      x ∈ (build g category).tree.categoryNames ∧ g.hasFunctions x = false := by
  rw [diagnostics_build, Diagnostic.noteAll_nil, Builder.remarks,
    eraseDups_remarks (preceded_preorder g category), tree_build, categoryNames_ofRose]
  simp

theorem name_mem_categoryNames {r : Rose Role} {id : Nat} {n : Node}
    (hn : (ofRose r).node? id = some n) (hkind : n.kind = .category) :
    n.name ∈ (ofRose r).categoryNames := by
  rw [categoryNames_ofRose]
  have hrole : r.preorder[id]? = some (roleOf n) := by rw [getElem?_preorder, hn, Option.map_some]
  exact List.mem_filterMap.2 ⟨roleOf n, List.mem_of_getElem? hrole, if_pos hkind⟩

/-! ## Edited trees -/

section Edited

variable {t : DerivationTree} {r : Rose Role} (h : t.original = ofRose r)

include h

theorem node?_ofRose {id : Nat} {n : Node} (hn : t.node? id = some n) :
    (ofRose r).node? id = some n.original := by
  rw [← h, original, node?_mapNodes, hn, Option.map_some]

/-- Edits keep the names. -/
theorem map_name_node? (id : Nat) :
    (t.node? id).map (·.name) = ((ofRose r).node? id).map (·.name) := by
  rw [← h, original, node?_mapNodes, Option.map_map]
  rfl

end Edited

end DerivationTree

namespace Session

open DerivationTree

variable {s : Session} {id : Nat} {n : Node}

/-- A place outside the tree offers nothing, nor does a function node. -/
theorem alternatives_of_none (hn : s.tree.node? id = none) : s.alternatives id = [] := by
  rw [alternatives, categoryAt?, hn]

theorem alternatives_of_function (hn : s.tree.node? id = some n) (hkind : n.kind = .function) :
    s.alternatives id = [] := by
  simp [alternatives, categoryAt?, hn, hkind]

theorem alternatives_of_category (hn : s.tree.node? id = some n) (hkind : n.kind = .category) :
    s.alternatives id = s.functionsFor n.name := by
  simp only [alternatives, categoryAt?, hn, if_pos hkind]

/-- Only the machine that builds the tree remarks on categories. -/
theorem unknownCategory_mem_run {document : Json} {g : Grammar}
    (h : Document.grammar document = .ok g) {category x : String} {os : List Operation} :
    .unknownCategory x ∈ ((ofCategory g category).run os).diagnostics ↔
      .unknownCategory x ∈ (build g.abstractGrammar category).diagnostics := by
  rw [diagnostics_run, Diagnostic.mem_noteAll, ofCategory, List.mem_append]
  constructor
  · rintro ((hload | hbuild) | hedit)
    · cases (nodup_diagnostics_load h).2 _ hload
    · exact hbuild
    · cases stage_of_mem_discoveries hedit
  · exact fun hbuild => .inl (.inr hbuild)

/-- **What a node offers.** Take two sessions on one category of a loaded
grammar, after any operations. If they are in one mode, every node offers the
same in both. A function node and a place outside the tree offer nothing. In
the mode of the abstract names, a category node with children offers the names
of its children, in their order; and one without children, be it cut, marked or
unknown, offers nothing just if there is a remark that nothing produces its
category. -/
theorem alternatives_of_runs {files : Files} {source : Source} {g : Grammar}
    (h : source.grammar files = .ok g) (category : String) (xs ys : List Operation) :
    let s := (ofCategory g category).run xs
    let u := (ofCategory g category).run ys
    (s.mode = u.mode → ∀ id, s.alternatives id = u.alternatives id) ∧
      (∀ id, s.tree.node? id = none → s.alternatives id = []) ∧
      ∀ id n, s.tree.node? id = some n →
        (n.kind = .function → s.alternatives id = []) ∧
        (s.mode = .abstractNames → n.kind = .category →
          (n.children ≠ [] →
            (s.alternatives id).map some = n.children.map fun c => (s.tree.node? c).map (·.name)) ∧
          (n.children = [] →
            (s.alternatives id = [] ↔ .unknownCategory n.name ∈ s.diagnostics))) := by
  intro s u
  obtain ⟨document, hdocument⟩ := Source.exists_document h
  have hs : s.tree.original = ofRose (Expansion.ofCategory g.abstractGrammar category) :=
    original_run_ofCategory g category xs
  have hu : u.tree.original = ofRose (Expansion.ofCategory g.abstractGrammar category) :=
    original_run_ofCategory g category ys
  have hgs : s.grammar = g := grammar_run _ xs
  have hgu : u.grammar = g := grammar_run _ ys
  refine ⟨fun hmode => alternatives_congr (hs.trans hu.symm) (hgs.trans hgu.symm) hmode,
    fun id => alternatives_of_none,
    fun id n hn => ⟨alternatives_of_function hn, fun hmode hkind => ?_⟩⟩
  have hoffers : s.alternatives id = g.abstractGrammar.functionsFor n.name := by
    rw [alternatives_of_category hn hkind, functionsFor, hmode, hgs]
  rw [hoffers]
  refine ⟨fun hne => ?_, fun _ => ?_⟩
  · have hnames := map_name_children_ofCategory (node?_ofRose hs hn) hkind hne
    simp only [map_name_node? hs]
    exact hnames.symm
  · have hstands := name_mem_categoryNames (node?_ofRose hs hn) hkind
    rw [← tree_build] at hstands
    rw [unknownCategory_mem_run hdocument, unknownCategory_mem_build,
      AbstractGrammar.functionsFor_eq_nil_iff]
    exact (and_iff_right hstands).symm

/-- Two runs that end in the mode of the abstract names, one of them by way of
a language. Nothing produces the category `B` of the last node. -/
theorem alternatives_of_twin_runs :
    let s := (ofCategory twinGrammar "S").run
      [.select 4 "f", .setLanguage (some "en"), .select 2 "a", .setLanguage none]
    let u := (ofCategory twinGrammar "S").run [.select 0 "f"]
    (Source.value twinDocument).grammar ⟨[]⟩ = .ok twinGrammar ∧ s.mode = u.mode ∧
      (∀ id, s.alternatives id = u.alternatives id) ∧
      (s.alternatives 0).map some = [1].map (fun c => (s.tree.node? c).map (·.name)) ∧
      s.alternatives 4 = [] ∧ .unknownCategory "B" ∈ s.diagnostics := by
  intro s u
  have hload : (Source.value twinDocument).grammar ⟨[]⟩ = .ok twinGrammar := rfl
  have hs : s.mode = .abstractNames := by decide +kernel
  have hmode : s.mode = u.mode := by decide +kernel
  have hroot : s.tree.node? 0 = some ⟨"S", "S", .category, [1], none, none, false⟩ := by
    decide +kernel
  have hlast : s.tree.node? 4 = some ⟨"B", "f", .category, [], some 1, some "B", false⟩ := by
    decide +kernel
  have hoffers : s.alternatives 4 = [] := by decide +kernel
  obtain ⟨hsame, -, hnodes⟩ := alternatives_of_runs hload "S"
    [.select 4 "f", .setLanguage (some "en"), .select 2 "a", .setLanguage none] [.select 0 "f"]
  exact ⟨hload, hmode, hsame hmode, ((hnodes 0 _ hroot).2 hs rfl).1 (by simp), hoffers,
    (((hnodes 4 _ hlast).2 hs rfl).2 rfl).1 hoffers⟩

end Session

end GrammarExplorer
