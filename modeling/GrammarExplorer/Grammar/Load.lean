/-
Loading a grammar from a document.

The document is checked in a fixed order: the abstract grammar before the
concrete ones, and of each concrete grammar the shape before the symbols of
its sequences. The first thing found wrong is the answer. What is odd but
usable is noticed on the way: symbols of an unknown kind, which are kept as
tokens, and productions without a function, which are left out.
-/
import GrammarExplorer.Grammar.Basic
import GrammarExplorer.Grammar.Document
import GrammarExplorer.Grammar.Error

namespace GrammarExplorer

open Document

/-- Something odd in a document. -/
inductive Notice
  | unknownSymbol (id : String) (sequence : Nat) (tag : String)
  | productionWithoutFunction (id category tag : String)
  deriving Repr, DecidableEq

def Notice.diagnostic : Notice → Diagnostic
  | unknownSymbol _ _ tag => .unknownSymbol tag
  | productionWithoutFunction _ category tag => .productionWithoutFunction category tag

def Notice.record : Notice → Log.Record
  | unknownSymbol id sequence tag =>
    ⟨.warn, Log.grammarTarget,
      id ++ ": sequence " ++ toString sequence ++ " uses unsupported symbol type '" ++ tag ++ "'"⟩
  | productionWithoutFunction id category tag =>
    ⟨.warn, Log.grammarTarget,
      id ++ ": skipping '" ++ tag ++ "' production of '" ++ category
        ++ "' without a function id"⟩

namespace Document

/-- The text of a word in a symbol: a string as it is, anything else as
JSON. -/
def wordText : Json → String
  | .string s => s
  | v => v.compact

/-- The symbol of an entry. Only a reference to an argument can fail: it has
to say which one. -/
def SymbolEntry.symbol? (e : SymbolEntry) : Option Symbol :=
  if e.tag == "SymKS" then some (.literal (" ".intercalate (e.arguments.map wordText)))
  else if e.tag == "SymCat" then (e.arguments.head?.bind Json.asNat?).map .category
  else some (.token e.arguments)

/-- Whether the symbol is of a kind with a reading of its own. -/
def SymbolEntry.isKnown (e : SymbolEntry) : Bool :=
  e.tag == "SymKS" || e.tag == "SymCat" || e.tag == "SymLit"

namespace ConcreteEntry

variable (id : String) (e : ConcreteEntry)

/-- The symbols of a sequence, given its number. -/
def sequenceSymbols (sequence : Nat) (entries : List SymbolEntry) :
    Except Malformation (List Symbol) :=
  entries.mapM fun s => match s.symbol? with
    | some symbol => .ok symbol
    | none => .error (.missingSlot id sequence)

/-- All sequences, symbol by symbol. -/
def allSequences : Except Malformation (List (List Symbol)) :=
  e.sequences.zipIdx.mapM fun (entries, sequence) => sequenceSymbols id sequence entries

/-- The symbols with the numbers of their sequences, up to the first that
cannot be read. -/
def readableSymbols : List (Nat × SymbolEntry) :=
  (e.sequences.zipIdx.flatMap fun (entries, sequence) => entries.map (sequence, ·)).takeWhile
    fun s => s.2.symbol?.isSome

/-- Whether every symbol can be read. -/
def isReadable : Bool := e.sequences.all fun entries => entries.all fun s => s.symbol?.isSome

def symbolNotices : List Notice :=
  (e.readableSymbols.filter fun s => !s.2.isKnown).map fun s => .unknownSymbol id s.1 s.2.tag

def productionNotices : List Notice :=
  e.productions.flatMap fun (category, entries) =>
    (entries.filter (·.function.isNone)).map fun p =>
      .productionWithoutFunction id category p.tag

/-- What is odd about the entry, as far as it can be read. -/
def notices : List Notice :=
  e.symbolNotices id ++ if e.isReadable then e.productionNotices id else []

/-- The language the grammar is for; its id stands in for a missing tag. -/
def languageTag : String := e.flags.language.getD id

/-- The concrete grammar of an entry. -/
def concrete : Except Malformation ConcreteGrammar := do
  let sequences ← e.allSequences id
  return {
    id
    languageTag := e.languageTag id
    functions := e.functions
    sequences
    productions := e.productions.map fun (category, entries) =>
      (category, entries.filterMap (·.function))
    ranges := e.ranges
    totalFids := e.totalFids }

end ConcreteEntry

/-- The entry of a concrete grammar. -/
def concreteEntry (id : String) (v : Json) : Except Malformation ConcreteEntry :=
  (concreteRecord.decode v).mapError (.badConcrete id)

/-- The function declared by a member of the dictionary of functions. -/
def declaration (name : String) (v : Json) : Except Malformation AbstractFunction := do
  let entry ← (functionRecord.decode v).mapError (.badFunction name)
  return ⟨name, entry.category, entry.arguments⟩

def grammarName : Option Json → Except Malformation String
  | none | some .null => .ok ""
  | some (.string name) => .ok name
  | some _ => .error .nameNotString

def startCategory : Option Json → Except Malformation String
  | some (.string category) => .ok category
  | some _ => .error .startNotString
  | none => .error .missingStart

def declarations : Option Json → Except Malformation (List AbstractFunction)
  | some (.object members) => members.mapM fun (name, v) => declaration name v
  | some _ => .error .functionsNotObject
  | none => .error .missingFunctions

/-- The abstract grammar of a document. -/
def abstractPart : Json → Except Malformation AbstractGrammar
  | .object members =>
    match Json.member? members "abstract" with
    | none => .error .missingAbstract
    | some (.object fields) => do
      let name ← grammarName (Json.member? fields "name")
      let start ← startCategory (Json.member? fields "startcat")
      let functions ← declarations (Json.member? fields "funs")
      return .ofDeclarations name start functions
    | some _ => .error .abstractNotObject
  | _ => .error .documentNotObject

/-- The dictionary of concrete grammars of a document. -/
def concreteMembers (document : Json) : Except Malformation (List (String × Json)) :=
  match document.field? "concretes" with
  | none | some .null => .ok []
  | some (.object members) => .ok members
  | some _ => .error .concretesNotObject

/-- A concrete grammar and what is odd about it. -/
def concretePart (id : String) (v : Json) : Except Malformation (ConcreteGrammar × List Notice) := do
  let entry ← concreteEntry id v
  let concrete ← entry.concrete id
  return (concrete, entry.notices id)

/-- The grammar of a document. -/
def grammar (document : Json) : Except Malformation Grammar := do
  let abstractGrammar ← abstractPart document
  let members ← concreteMembers document
  let parts ← members.mapM fun (id, v) => concretePart id v
  let found := parts.flatMap fun p => p.2.map Notice.diagnostic
  return ⟨abstractGrammar, parts.map (·.1), Diagnostic.noteAll [] found⟩

/-- What is odd about the concrete grammars up to the first that cannot be
loaded. -/
def noticesUpToFault : List (String × Json) → List Notice
  | [] => []
  | (id, v) :: rest =>
    match concreteEntry id v with
    | .error _ => []
    | .ok entry => entry.notices id ++ if entry.isReadable then noticesUpToFault rest else []

/-- What loading a document has to say, whether it succeeds or not. -/
def log (document : Json) : List Log.Record :=
  match abstractPart document, concreteMembers document with
  | .ok abstractGrammar, .ok members =>
    (noticesUpToFault members).map Notice.record ++
      match grammar document with
      | .error _ => []
      | .ok g =>
        [⟨.debug, Log.grammarTarget,
          "loaded grammar '" ++ abstractGrammar.name ++ "': "
            ++ toString abstractGrammar.functions.length ++ " functions, "
            ++ toString g.concretes.length ++ " concrete grammar(s)"⟩]
  | _, _ => []

end Document

namespace Grammar

/-- The grammar of a document that is JSON already. -/
def ofJson (document : Json) : Except GrammarError Grammar :=
  (Document.grammar document).mapError .malformed

/-- The grammar of a JSON text. -/
def ofText (text : String) : Except GrammarError Grammar :=
  match Json.read text with
  | .error e => .error (.json e)
  | .ok document => ofJson document

/-- The grammar in a file. -/
def ofFile (files : Files) (path : String) : Except GrammarError Grammar :=
  match files.readText path with
  | .error fault => .error (.unreadable path fault)
  | .ok text => ofText text

end Grammar

end GrammarExplorer
