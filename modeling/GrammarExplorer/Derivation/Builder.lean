/-
Building the derivation tree of a category.

The tree is put together by a machine with a stack of its own, so that a
deep grammar needs memory but no deep recursion. Besides the tree so far it
keeps the tasks ahead, next one first, and the path: the categories that are
being expanded around the next task. A category enters the path when its
functions are put on the stack, and a task below them takes it off again.

The machine stops: `Builder.ahead` says how many steps are left, by way of
the trees that `Expansion.expand` gives for the tasks, and each step makes
it one less.
-/
import GrammarExplorer.Derivation.Expansion
import GrammarExplorer.Derivation.Tree
import GrammarExplorer.Diagnostic
import GrammarExplorer.Log

namespace GrammarExplorer

inductive Task
  /-- Add a category node, and see to its functions. -/
  | category (name : String) (parent : Option Nat) (shared : Bool)
  /-- Add a function node, and see to its arguments. -/
  | function (name : String) (parent : Nat) (arguments : List (String × Bool))
  /-- A category is done. -/
  | leave (category : String)
  deriving Repr, DecidableEq

structure Builder where
  tree : DerivationTree
  diagnostics : List Diagnostic
  path : List String
  tasks : List Task
  deriving Repr, DecidableEq

/-- A derivation tree and what was found on the way to it. -/
structure BuildReport where
  tree : DerivationTree
  diagnostics : List Diagnostic
  deriving Repr, DecidableEq

namespace Builder

/-- The machine before its first step. -/
def start (category : String) : Builder := ⟨⟨#[]⟩, [], [], [.category category none false]⟩

/-- Marks the arguments that were seen before. -/
def markArguments (seen : List String) : List String → List (String × Bool)
  | [] => []
  | a :: rest => (a, seen.contains a) :: markArguments (a :: seen) rest

/-- The functions with their arguments marked, each of which counts as seen
in all that follow. -/
def markFunctions (seen : List String) :
    List AbstractFunction → List (String × List (String × Bool))
  | [] => []
  | f :: rest =>
    (f.name, markArguments seen f.arguments) :: markFunctions (f.arguments ++ seen) rest

/-- The functions below a category node. -/
def choices (g : AbstractGrammar) (category : String) : List (String × List (String × Bool)) :=
  markFunctions [] (g.producers category)

/-- The tasks for the functions of a category node. -/
def functionTasks (g : AbstractGrammar) (category : String) (id : Nat) : List Task :=
  (choices g category).map fun choice => .function choice.1 id choice.2

/-- The tasks for the arguments of a function node. -/
def argumentTasks (id : Nat) (arguments : List (String × Bool)) : List Task :=
  arguments.map fun argument => .category argument.1 (some id) argument.2

/-- One step: the next task is done. Nothing if there is none. -/
def step (g : AbstractGrammar) (b : Builder) : Option Builder :=
  match b.tasks with
  | [] => none
  | .category name parent shared :: rest =>
    let id := b.tree.size
    let tree := b.tree.push (.fresh name .category parent shared)
    some <|
      if shared ∨ name ∈ b.path then { b with tree, tasks := rest }
      else if g.hasFunctions name then
        { b with
          tree
          path := name :: b.path
          tasks := functionTasks g name id ++ .leave name :: rest }
      else
        { b with
          tree
          tasks := rest
          diagnostics := Diagnostic.note b.diagnostics (.unknownCategory name) }
  | .function name parent arguments :: rest =>
    let id := b.tree.size
    some { b with
      tree := b.tree.push (.fresh name .function (some parent) false)
      tasks := argumentTasks id arguments ++ rest }
  | .leave category :: rest => some { b with path := b.path.erase category, tasks := rest }

section Step

variable (g : AbstractGrammar) (t : DerivationTree) (ds : List Diagnostic) (path : List String)
  (rest : List Task)

/-- A category that is marked or on the path stays a leaf. -/
theorem step_cut {name : String} {parent : Option Nat} {shared : Bool}
    (h : shared = true ∨ name ∈ path) :
    step g ⟨t, ds, path, .category name parent shared :: rest⟩
      = some ⟨t.push (.fresh name .category parent shared), ds, path, rest⟩ := by
  simp only [step, if_pos h]

/-- Any other category is expanded, if it has functions. -/
theorem step_expanded {name : String} {parent : Option Nat} (hp : name ∉ path)
    (hf : g.hasFunctions name = true) :
    step g ⟨t, ds, path, .category name parent false :: rest⟩
      = some ⟨t.push (.fresh name .category parent false), ds, name :: path,
          functionTasks g name t.size ++ .leave name :: rest⟩ := by
  simp only [step, hp, hf, Bool.false_eq_true, or_self, if_false, if_true]

/-- Without functions it is a leaf that there is something to say about. -/
theorem step_unknown {name : String} {parent : Option Nat} (hp : name ∉ path)
    (hf : g.hasFunctions name = false) :
    step g ⟨t, ds, path, .category name parent false :: rest⟩
      = some ⟨t.push (.fresh name .category parent false),
          Diagnostic.note ds (.unknownCategory name), path, rest⟩ := by
  simp only [step, hp, hf, Bool.false_eq_true, or_self, if_false]

theorem step_function (name : String) (parent : Nat) (arguments : List (String × Bool)) :
    step g ⟨t, ds, path, .function name parent arguments :: rest⟩
      = some ⟨t.push (.fresh name .function (some parent) false), ds, path,
          argumentTasks t.size arguments ++ rest⟩ := rfl

theorem step_leave (category : String) :
    step g ⟨t, ds, path, .leave category :: rest⟩
      = some ⟨t, ds, path.erase category, rest⟩ := rfl

end Step

/-! ## Marked arguments -/

theorem markArguments_eq (seen as : List String) :
    markArguments seen as = as.mapIdx fun j a => (a, decide (a ∈ seen ++ as.take j)) := by
  induction as generalizing seen with
  | nil => rfl
  | cons a as ih =>
    have later : (fun j b => (b, decide (b ∈ (a :: seen) ++ as.take j)))
        = fun j b => (b, decide (b ∈ seen ++ (a :: as).take (j + 1))) := by
      funext j b
      simp only [List.take_succ_cons, List.mem_append, List.mem_cons, or_left_comm, or_assoc]
    rw [markArguments, ih, List.mapIdx_cons, later]
    simp

theorem markFunctions_eq (seen : List String) (fs : List AbstractFunction) :
    markFunctions seen fs = fs.mapIdx fun i f =>
      (f.name, f.arguments.mapIdx fun j a =>
        (a, decide (a ∈ seen ++ ((fs.take i).flatMap (·.arguments) ++ f.arguments.take j)))) := by
  induction fs generalizing seen with
  | nil => rfl
  | cons f fs ih =>
    have later : (fun i (f' : AbstractFunction) => (f'.name, f'.arguments.mapIdx fun j a =>
          (a, decide (a ∈ (f.arguments ++ seen)
            ++ ((fs.take i).flatMap (·.arguments) ++ f'.arguments.take j)))))
        = fun i f' => (f'.name, f'.arguments.mapIdx fun j a =>
          (a, decide (a ∈ seen
            ++ (((f :: fs).take (i + 1)).flatMap (·.arguments) ++ f'.arguments.take j)))) := by
      funext i f'
      simp only [List.take_succ_cons, List.flatMap_cons, List.mem_append, or_left_comm, or_assoc]
    rw [markFunctions, ih, List.mapIdx_cons, later, markArguments_eq]
    simp

/-- The machine marks the arguments that stood before. -/
theorem choices_eq (g : AbstractGrammar) (category : String) :
    choices g category = (g.producers category).mapIdx fun i f =>
      (f.name, f.arguments.mapIdx fun j a =>
        (a, Expansion.stoodBefore (g.producers category) i f j a)) := by
  rw [choices, markFunctions_eq]
  rfl

/-- The tree below a function, its arguments marked, while the categories of
`visiting` are being expanded. -/
def functionTree (g : AbstractGrammar) (visiting : List String)
    (choice : String × List (String × Bool)) : Rose Role :=
  .node ⟨choice.1, .function, false⟩ <| choice.2.map fun argument =>
    Expansion.expand g visiting argument.1 argument.2

/-- The trees below an expanded category. -/
def functionTrees (g : AbstractGrammar) (visiting : List String) (category : String) :
    List (Rose Role) :=
  (choices g category).map (functionTree g visiting)

/-- Below an expanded category stand its functions as the machine marks
them. -/
theorem expand_expanded {g : AbstractGrammar} {visiting : List String} {category : String}
    (hv : category ∉ visiting) (hf : g.hasFunctions category = true) :
    Expansion.expand g visiting category false
      = .node ⟨category, .category, false⟩ (functionTrees g (category :: visiting) category) := by
  rw [Expansion.expand, dif_pos ⟨rfl, hv, hf⟩, functionTrees, choices_eq]
  congr 1
  refine List.ext_getElem? fun i => ?_
  simp only [List.getElem?_mapIdx, List.getElem?_map, Option.map_map]
  congr 1
  funext f
  refine congrArg (Rose.node _) (List.ext_getElem? fun j => ?_)
  simp only [List.getElem?_mapIdx, List.getElem?_map, Option.map_map]
  rfl

/-! ## Steps ahead -/

/-- The steps that the tasks will take, starting on the given path. -/
def aheadOn (g : AbstractGrammar) (path : List String) : List Task → Nat
  | [] => 0
  | .category name _ shared :: rest =>
    Expansion.work (Expansion.expand g path name shared) + aheadOn g path rest
  | .function name _ arguments :: rest =>
    Expansion.work (functionTree g path (name, arguments)) + aheadOn g path rest
  | .leave category :: rest => 1 + aheadOn g (path.erase category) rest

/-- The steps still to come. -/
def ahead (g : AbstractGrammar) (b : Builder) : Nat := aheadOn g b.path b.tasks

theorem aheadOn_argumentTasks (g : AbstractGrammar) (path : List String) (id : Nat)
    (arguments : List (String × Bool)) (rest : List Task) :
    aheadOn g path (argumentTasks id arguments ++ rest)
      = Expansion.workAll (arguments.map fun a => Expansion.expand g path a.1 a.2)
        + aheadOn g path rest := by
  induction arguments with
  | nil => simp [argumentTasks, Expansion.workAll]
  | cons a as ih =>
    simp only [argumentTasks, List.map_cons, List.cons_append, aheadOn, Expansion.workAll] at ih ⊢
    omega

theorem aheadOn_functionTasks (g : AbstractGrammar) (path : List String) (category : String)
    (id : Nat) (rest : List Task) :
    aheadOn g path (functionTasks g category id ++ rest)
      = Expansion.workAll (functionTrees g path category) + aheadOn g path rest := by
  rw [functionTasks, functionTrees]
  induction choices g category with
  | nil => simp [Expansion.workAll]
  | cons c cs ih =>
    simp only [List.map_cons, List.cons_append, aheadOn, Expansion.workAll, Prod.eta] at ih ⊢
    omega

theorem choices_ne_nil {g : AbstractGrammar} {category : String}
    (hf : g.hasFunctions category = true) : choices g category ≠ [] := by
  rw [choices_eq, Ne, List.mapIdx_eq_nil_iff]
  exact AbstractGrammar.producers_ne_nil hf

theorem work_leaf {g : AbstractGrammar} {path : List String} {category : String} {shared : Bool}
    (h : ¬(shared = false ∧ category ∉ path ∧ g.hasFunctions category = true)) :
    Expansion.work (Expansion.expand g path category shared) = 1 := by
  rw [Expansion.expand_leaf h]
  simp [Expansion.work, Expansion.workAll]

theorem work_functionTree (g : AbstractGrammar) (path : List String) (name : String)
    (arguments : List (String × Bool)) :
    Expansion.work (functionTree g path (name, arguments))
      = 1 + Expansion.workAll (arguments.map fun a => Expansion.expand g path a.1 a.2) := by
  simp [functionTree, Expansion.work]

theorem work_expanded {g : AbstractGrammar} {path : List String} {category : String}
    (hp : category ∉ path) (hf : g.hasFunctions category = true) :
    Expansion.work (Expansion.expand g path category false)
      = 2 + Expansion.workAll (functionTrees g (category :: path) category) := by
  have hne : (functionTrees g (category :: path) category).isEmpty = false := by
    simpa [functionTrees] using choices_ne_nil hf
  rw [expand_expanded hp hf, Expansion.work, if_pos ⟨rfl, hne⟩]

/-- Each step is one of those that were ahead. -/
theorem ahead_step {g : AbstractGrammar} {b next : Builder} (h : b.step g = some next) :
    next.ahead g + 1 = b.ahead g := by
  unfold step at h
  unfold ahead
  split at h
  · simp at h
  · rename_i name parent shared rest htasks
    simp only [Option.some.injEq] at h
    rw [htasks, aheadOn]
    split at h
    · rename_i hcut
      subst h
      rw [work_leaf (by rintro ⟨hs, hp, -⟩; simp [hs, hp] at hcut)]
      simp only
      omega
    · rename_i hopen
      simp only [not_or, Bool.not_eq_true] at hopen
      split at h
      · rename_i hf
        subst h
        simp only
        rw [aheadOn_functionTasks, aheadOn, List.erase_cons_head, hopen.1,
          work_expanded hopen.2 hf]
        omega
      · rename_i hf
        subst h
        rw [work_leaf (by rintro ⟨-, -, hf'⟩; exact hf hf')]
        simp only
        omega
  · rename_i name parent arguments rest htasks
    simp only [Option.some.injEq] at h
    subst h
    simp only
    rw [htasks, aheadOn, aheadOn_argumentTasks, work_functionTree]
    omega
  · rename_i category rest htasks
    simp only [Option.some.injEq] at h
    subst h
    simp only
    rw [htasks, aheadOn]
    omega

/-- Steps until there is no task left. -/
def run (g : AbstractGrammar) (b : Builder) : Builder :=
  match _h : b.step g with
  | none => b
  | some next => run g next
termination_by b.ahead g
decreasing_by
  have := ahead_step _h
  omega

end Builder

namespace DerivationTree

/-- The tree of a category. -/
def build (g : AbstractGrammar) (category : String) : BuildReport :=
  let b := (Builder.start category).run g
  ⟨b.tree, b.diagnostics⟩

/-- What building a tree has to say. -/
def buildLog (g : AbstractGrammar) (category : String) : List Log.Record :=
  let t := (build g category).tree
  [⟨.debug, Log.derivationTarget,
    "built derivation tree for '" ++ category ++ "': " ++ toString t.size ++ " nodes, depth "
      ++ toString t.depth⟩]

end DerivationTree

end GrammarExplorer
