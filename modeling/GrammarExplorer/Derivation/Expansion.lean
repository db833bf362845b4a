/-
What lies below a category, by recursion over the grammar.

A category is expanded unless it is already being expanded further up on
the same path, nothing produces it, or it is marked as shared: among the
arguments of all functions below one category node, each category is
expanded where it stands first and marked where it stands again.
-/
import GrammarExplorer.Derivation.Node
import GrammarExplorer.Grammar.Abstract
import GrammarExplorer.Rose

namespace GrammarExplorer

/-- What a node stands for. -/
structure Role where
  name : String
  kind : NodeKind
  shared : Bool
  deriving Repr, DecidableEq

namespace Expansion

/-- Whether an argument stood before among the arguments of the functions
below one category node. It is argument `j` of `f`, which is function `i` of
them: the functions ahead of `f` have it, or `f` has it further ahead. -/
def stoodBefore (functions : List AbstractFunction) (i : Nat) (f : AbstractFunction) (j : Nat)
    (argument : String) : Bool :=
  argument ∈ (functions.take i).flatMap (·.arguments) ++ f.arguments.take j

/-- The number of functions whose category is not being expanded. -/
def free (g : AbstractGrammar) (visiting : List String) : Nat :=
  g.functions.countP fun f => f.result ∉ visiting

theorem countP_lt_countP {α : Type} {p q : α → Bool} {xs : List α} {x : α}
    (hpq : ∀ y, p y = true → q y = true) (hx : x ∈ xs) (hp : p x = false) (hq : q x = true) :
    xs.countP p < xs.countP q := by
  induction xs with
  | nil => simp at hx
  | cons y ys ih =>
    have hle : ys.countP p ≤ ys.countP q := List.countP_mono_left fun z _ => hpq z
    rcases List.mem_cons.1 hx with rfl | hmem
    · rw [List.countP_cons_of_neg (by simp [hp]), List.countP_cons_of_pos hq]
      omega
    · have hlt := ih hmem
      by_cases hy : p y = true
      · rw [List.countP_cons_of_pos hy, List.countP_cons_of_pos (hpq y hy)]
        omega
      · rw [List.countP_cons_of_neg hy, List.countP_cons]
        omega

theorem free_cons_lt {g : AbstractGrammar} {visiting : List String} {category : String}
    (hv : category ∉ visiting) (hf : g.hasFunctions category = true) :
    free g (category :: visiting) < free g visiting := by
  obtain ⟨f, hmem, hres⟩ := List.any_eq_true.1 hf
  have hres : f.result = category := by simpa using hres
  refine countP_lt_countP (fun y hy => ?_) hmem ?_ ?_
  · simp only [List.mem_cons, not_or, decide_eq_true_eq] at hy ⊢
    exact hy.2
  · simp [hres]
  · simpa [hres] using hv

/-- The tree below a category. -/
def expand (g : AbstractGrammar) (visiting : List String) (category : String) (shared : Bool) :
    Rose Role :=
  if _h : shared = false ∧ category ∉ visiting ∧ g.hasFunctions category = true then
    .node ⟨category, .category, false⟩ <| (g.producers category).mapIdx fun i f =>
      .node ⟨f.name, .function, false⟩ <| f.arguments.mapIdx fun j argument =>
        expand g (category :: visiting) argument
          (stoodBefore (g.producers category) i f j argument)
  else .node ⟨category, .category, shared⟩ []
termination_by free g visiting
decreasing_by exact free_cons_lt _h.2.1 _h.2.2

/-- Induction over what is expanded, with the hypothesis for whatever stands
below an expanded category. -/
theorem induct {g : AbstractGrammar} {motive : List String → String → Bool → Prop}
    (leaf : ∀ visiting category shared,
      ¬(shared = false ∧ category ∉ visiting ∧ g.hasFunctions category = true) →
      motive visiting category shared)
    (expanded : ∀ visiting category, category ∉ visiting → g.hasFunctions category = true →
      (∀ argument shared, motive (category :: visiting) argument shared) →
      motive visiting category false) (visiting : List String) (category : String)
    (shared : Bool) : motive visiting category shared := by
  generalize hn : free g visiting = n
  induction n using Nat.strongRecOn generalizing visiting category shared with
  | ind n ih =>
    by_cases h : shared = false ∧ category ∉ visiting ∧ g.hasFunctions category = true
    · obtain ⟨rfl, hv, hf⟩ := h
      exact expanded visiting category hv hf fun argument shared =>
        ih _ (hn ▸ free_cons_lt hv hf) _ _ _ rfl
    · exact leaf visiting category shared h

theorem expand_leaf {g : AbstractGrammar} {visiting : List String} {category : String}
    {shared : Bool}
    (h : ¬(shared = false ∧ category ∉ visiting ∧ g.hasFunctions category = true)) :
    expand g visiting category shared = .node ⟨category, .category, shared⟩ [] := by
  rw [expand, dif_neg h]

/-- The root of an expansion is the category, marked as it was asked for. -/
theorem label_expand (g : AbstractGrammar) (visiting : List String) (category : String)
    (shared : Bool) :
    (expand g visiting category shared).label = ⟨category, .category, shared⟩ := by
  rw [expand]
  split
  · next h => rw [h.1]; rfl
  · rfl

/-- The tree of a category by itself. -/
def ofCategory (g : AbstractGrammar) (category : String) : Rose Role := expand g [] category false

mutual

/-- The number of steps it takes to put a tree together: one for each node,
and one for leaving each category that has children. -/
def work : Rose Role → Nat
  | .node role children =>
    1 + (if role.kind = .category ∧ children.isEmpty = false then 1 else 0) + workAll children

def workAll : List (Rose Role) → Nat
  | [] => 0
  | t :: ts => work t + workAll ts

end

end Expansion

end GrammarExplorer
