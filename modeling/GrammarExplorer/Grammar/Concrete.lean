/-
Concrete grammars: how one language puts the functions of a grammar into
words. A concrete grammar has a table of functions, each of which points at
sequences of symbols, and for every category the productions that realize
it, each of which points at a function.
-/
import GrammarExplorer.Json.Basic
import GrammarExplorer.Log

namespace GrammarExplorer

/-- One element of a sequence. -/
inductive Symbol
  /-- Fixed text. -/
  | literal (text : String)
  /-- The argument in a given place. -/
  | category (slot : Nat)
  /-- Data without a reading of its own, shown as it is. -/
  | token (values : List Json)

/-- A function of a concrete grammar, with one sequence for each of its
linearizations. -/
structure ConcreteFunction where
  name : String
  linearizations : List Nat
  deriving Repr, DecidableEq

/-- The range of numbers that a category has in a concrete grammar. -/
structure CategoryRange where
  first : Int
  last : Int
  deriving Repr, DecidableEq

structure ConcreteGrammar where
  id : String
  languageTag : String
  functions : List ConcreteFunction
  sequences : List (List Symbol)
  /-- For each category the places in `functions` of what realizes it. -/
  productions : List (String × List Nat)
  ranges : List (String × CategoryRange)
  totalFids : Option Nat

/-- Sets what belongs to a key: in its old place if it has one, else at the
end. -/
def setEntry {α : Type} (entries : List (String × α)) (key : String) (value : α) :
    List (String × α) :=
  if entries.any (·.1 == key) then
    entries.map fun e => if e.1 == key then (key, value) else e
  else entries ++ [(key, value)]

/-- What belongs to a key. -/
def lookup? {α : Type} (entries : List (String × α)) (key : String) : Option α :=
  (entries.find? (·.1 == key)).map (·.2)

namespace ConcreteGrammar

/-- A grammar without productions, ranges or a total. -/
def ofTables (id languageTag : String) (functions : List ConcreteFunction)
    (sequences : List (List Symbol)) : ConcreteGrammar :=
  ⟨id, languageTag, functions, sequences, [], [], none⟩

variable (g : ConcreteGrammar)

def withProductions (category : String) (functions : List Nat) : ConcreteGrammar :=
  { g with productions := setEntry g.productions category functions }

def withRange (category : String) (range : CategoryRange) : ConcreteGrammar :=
  { g with ranges := setEntry g.ranges category range }

def withTotalFids (total : Nat) : ConcreteGrammar :=
  { g with totalFids := some total }

/-- The function in a place of the table. -/
def functionAt? (fid : Nat) : Option ConcreteFunction := g.functions[fid]?

/-- The function of a name; the first one where the name repeats. -/
def function? (name : String) : Option ConcreteFunction :=
  g.functions.find? (·.name == name)

/-- The productions of a category: places in the table of functions. -/
def productionsFor (category : String) : List Nat :=
  (lookup? g.productions category).getD []

/-- The names of the functions that realize a category, in the order of its
productions. A production that points outside the table gives none. -/
def functionsFor (category : String) : List String :=
  (g.productionsFor category).filterMap fun fid => (g.functionAt? fid).map (·.name)

/-- What listing the functions of a category has to say: which productions
point outside the table. -/
def functionsForLog (category : String) : List Log.Record :=
  ((g.productionsFor category).filter fun fid => (g.functionAt? fid).isNone).map fun fid =>
    ⟨.warn, Log.concreteTarget,
      g.id ++ ": production for '" ++ category ++ "' references missing function "
        ++ toString fid⟩

def range? (category : String) : Option CategoryRange := lookup? g.ranges category

end ConcreteGrammar

end GrammarExplorer
