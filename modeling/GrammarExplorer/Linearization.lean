/-
Putting functions into words.

A sequence is resolved symbol by symbol and the pieces are joined with
blanks: a literal gives its text, a reference to an argument gives the name
of the argument's category, a token gives its values one after the other. A
reference past the last argument gives its number in braces and a
diagnostic.
-/
import GrammarExplorer.Diagnostic
import GrammarExplorer.Grammar.Concrete
import GrammarExplorer.Json.Printer

namespace GrammarExplorer

namespace Symbol

/-- A value of a token as text: a string as it is, null as nothing, anything
else as JSON. -/
def tokenText : Json → String
  | .string s => s
  | .null => ""
  | v => v.compact

/-- What stands for an argument that is not there. -/
def placeholder (slot : Nat) : String := "\x7b" ++ toString slot ++ "\x7d"

/-- The piece of text a symbol gives. -/
def text (arguments : List String) : Symbol → String
  | literal t => t
  | category slot => (arguments[slot]?).getD (placeholder slot)
  | token values => String.join (values.map tokenText)

/-- The argument a symbol refers to, if there is none such. -/
def missingSlot? (arity : Nat) : Symbol → Option Nat
  | category slot => if slot < arity then none else some slot
  | _ => none

end Symbol

namespace Linearization

/-- The text of a sequence for a function with these argument categories. -/
def resolve (symbols : List Symbol) (arguments : List String) : String :=
  " ".intercalate (symbols.map (·.text arguments))

/-- The references of a sequence past the last argument. -/
def missingSlots (symbols : List Symbol) (arity : Nat) : List Nat :=
  symbols.filterMap (·.missingSlot? arity)

/-- One diagnostic for each reference past the last argument. -/
def resolveDiagnostics (symbols : List Symbol) (arguments : List String) : List Diagnostic :=
  (missingSlots symbols arguments.length).map fun slot =>
    .outOfRangeSlot slot arguments.length

def resolveLog (symbols : List Symbol) (arguments : List String) : List Log.Record :=
  (missingSlots symbols arguments.length).map fun slot =>
    ⟨.warn, Log.linearizationTarget,
      "category reference " ++ toString slot ++ " out of range ("
        ++ toString arguments.length ++ " argument(s))"⟩

/-- What resolving all linearizations of a function gives: one text each,
and the diagnostics, each once, in the order of their discovery. -/
structure Wording where
  texts : List String
  diagnostics : List Diagnostic
  deriving Repr, DecidableEq

/-- The linearizations of a function. One that points outside the table of
sequences is empty. -/
def wording (f : ConcreteFunction) (table : List (List Symbol)) (arguments : List String) :
    Wording where
  texts := f.linearizations.map fun index =>
    match table[index]? with
    | some symbols => resolve symbols arguments
    | none => ""
  diagnostics := Diagnostic.noteAll [] <| f.linearizations.flatMap fun index =>
    match table[index]? with
    | some symbols => resolveDiagnostics symbols arguments
    | none => []

def wordingLog (f : ConcreteFunction) (table : List (List Symbol)) (arguments : List String) :
    List Log.Record :=
  f.linearizations.flatMap fun index =>
    match table[index]? with
    | some symbols => resolveLog symbols arguments
    | none =>
      [⟨.warn, Log.linearizationTarget,
        "function '" ++ f.name ++ "' points at missing sequence " ++ toString index⟩]

/-- The linearizations of the function of a name. -/
def wordingOf? (g : ConcreteGrammar) (name : String) (arguments : List String) : Option Wording :=
  (g.function? name).map fun f => wording f g.sequences arguments

def wordingOfLog (g : ConcreteGrammar) (name : String) (arguments : List String) :
    List Log.Record :=
  match g.function? name with
  | some f => wordingLog f g.sequences arguments
  | none => []

/-- Several linearizations in one label: each different text once, in the
order of their first occurrence. -/
def label (texts : List String) (separator : String) : String :=
  separator.intercalate texts.eraseDups

end Linearization

end GrammarExplorer
