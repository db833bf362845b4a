/-
Abstract grammars: categories, and the functions that produce them. The
functions keep the order in which they were declared and have different
names; a later declaration of a name takes the place of the earlier one.
-/
namespace GrammarExplorer

/-- A function takes values of its argument categories to one of its result
category. -/
structure AbstractFunction where
  name : String
  result : String
  arguments : List String
  deriving Repr, DecidableEq

def AbstractFunction.arity (f : AbstractFunction) : Nat := f.arguments.length

structure AbstractGrammar where
  name : String
  startCategory : String
  functions : List AbstractFunction
  deriving Repr, DecidableEq

namespace AbstractGrammar

/-- Declares a function: in the place of an earlier one of that name, else
after all others. -/
def declare (functions : List AbstractFunction) (f : AbstractFunction) : List AbstractFunction :=
  if functions.any (·.name == f.name) then
    functions.map fun g => if g.name == f.name then f else g
  else functions ++ [f]

/-- The grammar with these declarations, made one after the other. -/
def ofDeclarations (name startCategory : String) (functions : List AbstractFunction) :
    AbstractGrammar :=
  ⟨name, startCategory, functions.foldl declare []⟩

variable (g : AbstractGrammar)

/-- The function of a name. -/
def function? (name : String) : Option AbstractFunction :=
  g.functions.find? (·.name == name)

/-- The functions that produce a category, as declared. -/
def producers (category : String) : List AbstractFunction :=
  g.functions.filter (·.result == category)

/-- The names of the functions that produce a category. -/
def functionsFor (category : String) : List String :=
  (g.producers category).map (·.name)

def hasFunctions (category : String) : Bool :=
  g.functions.any (·.result == category)

variable {g} in
theorem producers_ne_nil {category : String} (h : g.hasFunctions category = true) :
    g.producers category ≠ [] := by
  obtain ⟨f, hmem, hres⟩ := List.any_eq_true.1 h
  exact List.ne_nil_of_mem (List.mem_filter.2 ⟨hmem, hres⟩)

variable {g} in
theorem hasFunctions_of_mem {category : String} {f : AbstractFunction}
    (h : f ∈ g.producers category) : g.hasFunctions category = true := by
  obtain ⟨hmem, hres⟩ := List.mem_filter.1 h
  exact List.any_eq_true.2 ⟨f, hmem, hres⟩

/-- Every category the grammar mentions, in the order of first mention: the
start category, then those of each function, its result before its
arguments. -/
def categories : List String :=
  (g.startCategory :: g.functions.flatMap fun f => f.result :: f.arguments).eraseDups

end AbstractGrammar

end GrammarExplorer
