/-
The machine that builds a derivation tree does what the recursion over the
grammar says.

The simulation goes by parts: with a category at the head of the tasks, the
machine comes to the point where that task is gone, its whole expansion hangs
in the tree, and path and remaining tasks are as before (`run_category`). The
path has to be the list of the categories under expansion at the start, and
is so again at the end, since what is put on the path is taken off by the
task behind the functions. Arguments and functions, as lists of tasks, follow
one by one (`run_arguments`, `run_functions`).
-/
import GrammarExplorer.Derivation.Builder
import GrammarExplorer.Proofs.Derivation.Layout
import GrammarExplorer.Proofs.Diagnostic

namespace GrammarExplorer

namespace Builder

open DerivationTree Expansion

variable {g : AbstractGrammar}

theorem run_of_step {b next : Builder} (h : b.step g = some next) : b.run g = next.run g := by
  rw [run]
  split
  · next hnone => rw [h] at hnone; cases hnone
  · next b' hsome => rw [h] at hsome; cases hsome; rfl

theorem run_done (t : DerivationTree) (ds : List Diagnostic) (path : List String) :
    run g ⟨t, ds, path, []⟩ = ⟨t, ds, path, []⟩ := by
  rw [run]
  rfl

/-- What there is to say about a node: that nothing produces its category. A
marked node is passed over. -/
def remark? (g : AbstractGrammar) (role : Role) : Option Diagnostic :=
  if role.kind = .category ∧ role.shared = false ∧ g.hasFunctions role.name = false then
    some (.unknownCategory role.name)
  else none

/-- What there is to say about a tree, in preorder. -/
def remarks (g : AbstractGrammar) (r : Rose Role) : List Diagnostic :=
  r.preorder.filterMap (remark? g)

theorem remarks_node (role : Role) (cs : List (Rose Role)) :
    remarks g (.node role cs) = (remark? g role).toList ++ cs.flatMap (remarks g) := by
  rw [remarks, Rose.preorder_node, List.filterMap_cons, List.filterMap_flatMap]
  cases remark? g role <;> rfl

/-- The machine with a tree hung below a node, and nothing else changed than
what is to say about it. -/
def hang (g : AbstractGrammar) (t : DerivationTree) (ds : List Diagnostic) (path : List String)
    (parent : Option Nat) (r : Rose Role) (rest : List Task) : Builder :=
  ⟨t.graft parent r, Diagnostic.noteAll ds (remarks g r), path, rest⟩

/-- The same for several trees below one node. -/
def hangAll (g : AbstractGrammar) (t : DerivationTree) (ds : List Diagnostic) (path : List String)
    (parent : Nat) (rs : List (Rose Role)) (rest : List Task) : Builder :=
  ⟨t.graftAll parent rs, Diagnostic.noteAll ds (rs.flatMap (remarks g)), path, rest⟩

/-- That the machine expands categories on a path as the recursion does. -/
def Expands (g : AbstractGrammar) (path : List String) (category : String) (shared : Bool) : Prop :=
  ∀ t ds parent rest, run g ⟨t, ds, path, .category category parent shared :: rest⟩
    = run g (hang g t ds path parent (expand g path category shared) rest)

theorem run_arguments {path : List String} (h : ∀ a shared, Expands g path a shared) (id : Nat)
    (arguments : List (String × Bool)) (rest : List Task) :
    ∀ t ds, run g ⟨t, ds, path, argumentTasks id arguments ++ rest⟩
      = run g (hangAll g t ds path id
          (arguments.map fun a => expand g path a.1 a.2) rest) := by
  induction arguments with
  | nil => intro t ds; rfl
  | cons a as ih =>
    intro t ds
    simp only [argumentTasks, List.map_cons, List.cons_append] at ih ⊢
    rw [h a.1 a.2, hang, ih, hangAll, hangAll, graftAll, List.flatMap_cons,
      Diagnostic.noteAll_append]

theorem run_functions {path : List String} (h : ∀ a shared, Expands g path a shared) (id : Nat)
    (choices : List (String × List (String × Bool))) (rest : List Task) :
    ∀ t ds, run g ⟨t, ds, path, (choices.map fun c => .function c.1 id c.2) ++ rest⟩
      = run g (hangAll g t ds path id (choices.map (functionTree g path)) rest) := by
  induction choices with
  | nil => intro t ds; rfl
  | cons c cs ih =>
    intro t ds
    simp only [List.map_cons, List.cons_append]
    rw [run_of_step (step_function ..), run_arguments h, hangAll, ih, hangAll, hangAll, graftAll,
      functionTree, graft, List.flatMap_cons, remarks_node, Diagnostic.noteAll_append]
    rfl

/-- The machine expands a category as the recursion does, if the categories
on its path have functions. -/
theorem run_category (path : List String) (category : String) (shared : Bool) :
    (∀ v ∈ path, g.hasFunctions v = true) → Expands g path category shared := by
  induction path, category, shared using Expansion.induct (g := g) with
  | leaf path category shared hleaf =>
    intro hpath t ds parent rest
    rw [hang, expand_leaf hleaf, remarks_node]
    by_cases hcut : shared = true ∨ category ∈ path
    · have hremark : remark? g ⟨category, .category, shared⟩ = none := by
        rcases hcut with hs | hp
        · simp [remark?, hs]
        · simp [remark?, hpath _ hp]
      rw [run_of_step (step_cut g t ds path rest hcut), hremark]
      rfl
    · obtain ⟨hs, hp⟩ := not_or.1 hcut
      have hs : shared = false := by simpa using hs
      subst hs
      have hf : g.hasFunctions category = false := by simpa [hp] using hleaf
      have hremark : remark? g ⟨category, .category, false⟩ = some (.unknownCategory category) := by
        simp [remark?, hf]
      rw [run_of_step (step_unknown g t ds path rest hp hf), hremark]
      rfl
  | expanded path category hp hf ih =>
    intro hpath t ds parent rest
    have hpath' : ∀ v ∈ category :: path, g.hasFunctions v = true := by
      intro v hv
      rcases List.mem_cons.1 hv with rfl | hv
      · exact hf
      · exact hpath v hv
    have hremark : remark? g ⟨category, .category, false⟩ = none := by simp [remark?, hf]
    rw [run_of_step (step_expanded g t ds path rest hp hf), functionTasks,
      run_functions (fun a s => ih a s hpath'), hangAll, run_of_step (step_leave g _ _ _ rest _),
      List.erase_cons_head, hang, expand_expanded hp hf, remarks_node, hremark, graft]
    rfl

end Builder

namespace DerivationTree

/-- What the machine leaves is the expansion of the category with what is to
say about it. -/
theorem build_eq (g : AbstractGrammar) (category : String) :
    build g category = ⟨ofRose (Expansion.ofCategory g category),
      Diagnostic.noteAll [] (Builder.remarks g (Expansion.ofCategory g category))⟩ := by
  rw [build, Builder.start, Builder.run_category [] category false (by simp), Builder.hang,
    graft_empty, Builder.run_done]
  rfl

theorem tree_build (g : AbstractGrammar) (category : String) :
    (build g category).tree = ofRose (Expansion.ofCategory g category) := by
  rw [build_eq]

theorem diagnostics_build (g : AbstractGrammar) (category : String) :
    (build g category).diagnostics
      = Diagnostic.noteAll [] (Builder.remarks g (Expansion.ofCategory g category)) := by
  rw [build_eq]

/-- **The machine builds the expansion.** For every grammar, recursive or
not, and every category, the table that the machine leaves is the tree of the
recursion over the grammar: in preorder, every node in the place of its
number, with its parent and with its children in order. Along the links to
the children one reads that tree back, a walk passes the places from first to
last, a node lists as its children the nodes whose parent it is, and every
label is the name. -/
theorem build_eq_expansion (g : AbstractGrammar) (category : String) :
    let t := (build g category).tree
    let expansion := Expansion.ofCategory g category
    t = ofRose expansion ∧
      t.read = expansion ∧
      t.nodes.toList.map roleOf = expansion.preorder ∧
      t.walk = List.range expansion.size ∧
      (∀ id child, child ∈ t.children id ↔ t.parent? child = some id) ∧
      (∀ id n, t.node? id = some n → n.label = n.name ∧ n.isEdited = false) := by
  intro t expansion
  have ht : t = ofRose expansion := tree_build g category
  refine ⟨ht, ?_, ?_, ?_, ?_, ?_⟩
  · rw [ht, read_ofRose]
  · rw [ht, map_roleOf_ofRose]
  · rw [ht, walk_ofRose, size_ofRose]
  · rw [ht]
    exact mem_children_ofRose expansion
  · rw [ht]
    exact fun id n hn => label_ofRose expansion hn

end DerivationTree

end GrammarExplorer
