/-
Conditions that are worth a remark and stop nothing: found while loading a
grammar, building a tree, or putting a function into words.
-/
namespace GrammarExplorer

inductive Diagnostic
  /-- A category is mentioned but no function produces it. -/
  | unknownCategory (category : String)
  /-- A sequence refers to an argument that the function does not have. -/
  | outOfRangeSlot (slot arity : Nat)
  /-- A symbol of a kind that has no reading of its own. -/
  | unknownSymbol (tag : String)
  /-- A production that names no function. -/
  | productionWithoutFunction (category tag : String)
  deriving Repr, DecidableEq

namespace Diagnostic

def message : Diagnostic → String
  | unknownCategory category => "category '" ++ category ++ "' has no functions"
  | outOfRangeSlot slot arity =>
    "slot " ++ toString slot ++ " out of range for " ++ toString arity ++ " argument(s)"
  | unknownSymbol tag => "unknown symbol type '" ++ tag ++ "'"
  | productionWithoutFunction category tag =>
    "'" ++ tag ++ "' production of '" ++ category ++ "' has no function id"

/-- Adds a diagnostic that is not in the list yet. -/
def note (known : List Diagnostic) (d : Diagnostic) : List Diagnostic :=
  if d ∈ known then known else known ++ [d]

/-- Adds those of `found` that are not in the list yet, each once. -/
def noteAll (known found : List Diagnostic) : List Diagnostic := found.foldl note known

end Diagnostic

end GrammarExplorer
