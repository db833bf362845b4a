/-
Functions with an index of their names.

The index says where in the table the function of a name is, so that a look-up
need not go through the table. A declaration writes the index only when the name
is new; a function that takes the place of an earlier one is found through the
old entry.
-/
import GrammarExplorer.Grammar.Abstract
import Std.Data.HashMap

namespace GrammarExplorer

structure IndexedFunctions where
  functions : List AbstractFunction
  /-- The place of each name in the table. -/
  index : Std.HashMap String Nat

namespace IndexedFunctions

def empty : IndexedFunctions := ⟨[], ∅⟩

/-- Declares a function. There is no result if the index points outside the
table. -/
def declare (t : IndexedFunctions) (f : AbstractFunction) : Option IndexedFunctions :=
  match t.index[f.name]? with
  | some place =>
    if place < t.functions.length then some { t with functions := t.functions.set place f } else none
  | none => some ⟨t.functions ++ [f], t.index.insert f.name t.functions.length⟩

/-- Declares functions one after the other. -/
def ofDeclarations (functions : List AbstractFunction) : Option IndexedFunctions :=
  functions.foldlM declare empty

/-- The function of a name, looked up in the index. -/
def function? (t : IndexedFunctions) (name : String) : Option AbstractFunction :=
  (t.index[name]?).bind (t.functions[·]?)

end IndexedFunctions

end GrammarExplorer
