/-
The index of the names in a concrete grammar.

The index is made once, with the table of functions, and never written again. It
takes the functions in their order and leaves a name alone that it has already,
so a name that repeats keeps its first place. A look-up by name goes through the
index to the table; a production goes to the table itself.
-/
import GrammarExplorer.Grammar.Concrete
import Std.Data.HashMap

namespace GrammarExplorer

/-- The place of each name in a table of functions. -/
def nameIndex (functions : List ConcreteFunction) : Std.HashMap String Nat :=
  functions.zipIdx.foldl (fun index (f, place) => index.insertIfNew f.name place) ∅

/-- The function of a name, looked up in the index. The answer is that there is
none if the index lacks the name; there is no answer if the index points outside
the table. -/
def ConcreteGrammar.functionByIndex (g : ConcreteGrammar) (name : String) :
    Option (Option ConcreteFunction) :=
  match (nameIndex g.functions)[name]? with
  | none => some none
  | some place => (g.functions[place]?).map some

end GrammarExplorer
