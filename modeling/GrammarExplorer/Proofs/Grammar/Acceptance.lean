/-
Which documents are accepted, and what is said about the others.

All that is wrong with a document is listed in the order of the document
(`faults`). A document that says something (`IsDocument`) is accepted; any
other is rejected for the first thing that is wrong with it.
-/
import GrammarExplorer.Proofs.Grammar.Conversion
import GrammarExplorer.Proofs.Grammar.Load

namespace GrammarExplorer

open Json

namespace Document

/-! ## What is wrong with a document -/

def nameFaults : Option Json → List Malformation
  | none | some .null | some (.string _) => []
  | some _ => [.nameNotString]

def startFaults : Option Json → List Malformation
  | none => [.missingStart]
  | some (.string _) => []
  | some _ => [.startNotString]

def functionFaults (name : String) (v : Json) : List Malformation :=
  ((fault? (functionRecord.decode v)).map (.badFunction name)).toList

def functionsFaults : Option Json → List Malformation
  | none => [.missingFunctions]
  | some (.object members) => members.flatMap fun m => functionFaults m.1 m.2
  | some _ => [.functionsNotObject]

def abstractFaults : Option Json → List Malformation
  | none => [.missingAbstract]
  | some (.object fields) =>
    nameFaults (member? fields "name") ++ startFaults (member? fields "startcat") ++
      functionsFaults (member? fields "funs")
  | some _ => [.abstractNotObject]

instance (e : SymbolEntry) : Decidable e.Addressed :=
  decidable_of_iff (e.symbol?.isSome = true) SymbolEntry.isSome_symbol?_iff

def sequenceFaults (id : String) (sequence : Nat) (entries : List SymbolEntry) :
    List Malformation :=
  entries.flatMap fun e => if e.Addressed then [] else [.missingSlot id sequence]

def concreteFaults (id : String) (v : Json) : List Malformation :=
  match concreteRecord.decode v with
  | .error cause => [.badConcrete id cause]
  | .ok e => e.sequences.zipIdx.flatMap fun s => sequenceFaults id s.2 s.1

def concretesFaults : Option Json → List Malformation
  | none | some .null => []
  | some (.object members) => members.flatMap fun m => concreteFaults m.1 m.2
  | some _ => [.concretesNotObject]

/-- All that is wrong with a document. -/
def faults : Json → List Malformation
  | .object members =>
    abstractFaults (member? members "abstract") ++ concretesFaults (member? members "concretes")
  | _ => [.documentNotObject]

/-! ## What is said about it -/

theorem fault?_grammarName (value : Option Json) :
    fault? (grammarName value) = (nameFaults value).head? := by
  rcases value with _ | v
  · rfl
  · cases v <;> rfl

theorem fault?_startCategory (value : Option Json) :
    fault? (startCategory value) = (startFaults value).head? := by
  rcases value with _ | v
  · rfl
  · cases v <;> rfl

theorem fault?_declaration (name : String) (v : Json) :
    fault? (declaration name v) = (functionFaults name v).head? := by
  unfold declaration functionFaults
  rw [fault?_bind_ok, fault?_mapError, Option.head?_toList]

theorem fault?_declarations (value : Option Json) :
    fault? (declarations value) = (functionsFaults value).head? := by
  rcases value with _ | v
  · rfl
  cases v with
  | object members => exact fault?_mapM_eq_head? fun m => fault?_declaration m.1 m.2
  | _ => rfl

theorem fault?_abstractPart (members : List (String × Json)) :
    fault? (abstractPart (.object members)) =
      (abstractFaults (member? members "abstract")).head? := by
  simp only [abstractPart]
  generalize member? members "abstract" = value
  rcases value with _ | v
  · rfl
  cases v with
  | object fields =>
    simp only [abstractFaults, List.append_assoc]
    refine fault?_bind_eq_head? (fault?_grammarName _) fun name _ => ?_
    refine fault?_bind_eq_head? (fault?_startCategory _) fun start _ => ?_
    rw [fault?_bind_ok, fault?_declarations]
  | _ => rfl

theorem fault?_sequenceSymbols (id : String) (sequence : Nat) (entries : List SymbolEntry) :
    fault? (ConcreteEntry.sequenceSymbols id sequence entries) =
      (sequenceFaults id sequence entries).head? := by
  refine fault?_mapM_eq_head? fun e => ?_
  simp only [← SymbolEntry.isSome_symbol?_iff]
  cases e.symbol? <;> rfl

theorem fault?_allSequences (id : String) (e : ConcreteEntry) :
    fault? (e.allSequences id) =
      (e.sequences.zipIdx.flatMap fun s => sequenceFaults id s.2 s.1).head? :=
  fault?_mapM_eq_head? fun s => fault?_sequenceSymbols id s.2 s.1

theorem fault?_concretePart (id : String) (v : Json) :
    fault? (concretePart id v) = (concreteFaults id v).head? := by
  unfold concretePart concreteEntry concreteFaults
  cases concreteRecord.decode v with
  | error cause => rfl
  | ok e =>
    rw [← fault?_allSequences, ← fault?_bind_ok (e.allSequences id)]
    exact fault?_bind_ok _ _

theorem fault?_concretesPart (members : List (String × Json))
    (put : List (ConcreteGrammar × List Notice) → Grammar) :
    fault? (do
      let found ← concreteMembers (.object members)
      let parts ← found.mapM fun m => concretePart m.1 m.2
      return put parts) = (concretesFaults (member? members "concretes")).head? := by
  simp only [concreteMembers, field?]
  generalize member? members "concretes" = value
  rcases value with _ | v
  · rfl
  cases v with
  | object found =>
    refine (fault?_bind_ok _ put).trans ?_
    exact fault?_mapM_eq_head? fun m => fault?_concretePart m.1 m.2
  | _ => rfl

/-- What is said about a document is the first thing that is wrong with it. -/
theorem fault?_grammar (document : Json) :
    fault? (grammar document) = (faults document).head? := by
  cases document with
  | object members =>
    exact fault?_bind_eq_head? (fault?_abstractPart members) fun abstractGrammar _ =>
      fault?_concretesPart members _
  | _ => rfl

/-- A document whose records come as objects as well as lists, with symbols of
an unknown kind and productions without a function in both languages. -/
def mixedDocument : Json :=
  .object [
    ("abstract", .object [
      ("name", .null),
      ("startcat", .string "S"),
      ("funs", .object [
        ("Pred", .object [("args", .array [.string "NP"]), ("cat", .string "S")]),
        ("Ann", .array [.string "NP", .array []])])]),
    ("concretes", .object [
      ("Eng", .object [
        ("flags", .object [("language", .string "en")]),
        ("productions", .object [
          ("S", .array [
            .object [("fid", .number (.integer 1)), ("type", .string "Apply")],
            .object [("type", .string "Coerce")]]),
          ("NP", .array [.array [.string "Apply", .number (.integer 0)]])]),
        ("functions", .array [
          .object [("name", .string "Ann"), ("lins", .array [.number (.integer 0)])],
          .array [.string "Pred", .array [.number (.integer 1)]]]),
        ("sequences", .array [
          .array [
            .object [("type", .string "SymKS"), ("args", .array [.string "Ann", .bool true])]],
          .array [
            .object [("type", .string "SymCat"), ("args", .array [.number (.integer 0)])],
            .object [("type", .string "SymVar")],
            .array [.string "SymLit"]]])]),
      ("Ger", .object [
        ("sequences", .array [.array [.array [.string "SymVar"]], .array []]),
        ("productions", .object [("S", .array [.object [("type", .string "Coerce")]])]),
        ("totalfids", .number (.integer 4))])])]

/-- A document with three things wrong. -/
def flawedDocument : Json :=
  .object [
    ("concretes", .object [
      ("Eng", .object [("sequences", .array [.array [], .array [.array [.string "SymCat"]]])])]),
    ("abstract", .object [
      ("funs", .object [("Ann", .object [("cat", .string "NP")])]),
      ("startcat", .string "S"),
      ("name", .bool true)])]

end Document

open Document

/-- **Exactly the documents that say something are accepted.** The others are
rejected as malformed, for the first thing that is wrong with them in the order
of the document. An accepted document says what the abstract grammar is: its
functions are those of the document, in their order. All this is said of
documents without double keys, as there are no others. -/
theorem Grammar.ofJson_verdict {document : Json} (h : document.keyed = true) :
    ((∃ g, ofJson document = .ok g) ↔
        ∃ abstractGrammar entries, IsDocument document abstractGrammar entries) ∧
      (∀ e, ofJson document = .error e ↔
        ∃ cause, (faults document).head? = some cause ∧ e = .malformed cause) ∧
      ∀ g, ofJson document = .ok g →
        ∃ entries, IsDocument document g.abstractGrammar entries := by
  unfold ofJson
  refine ⟨?_, fun e => ?_, fun g hg => ?_⟩
  · simp only [mapError_eq_ok_iff, exists_grammar_iff h]
  · rw [← fault?_eq_some_iff, fault?_mapError, fault?_grammar, Option.map_eq_some_iff]
    simp only [eq_comm]
  · obtain ⟨entries, parts, hdocument, -⟩ := (grammar_eq_ok_iff h).1 (mapError_eq_ok_iff.1 hg)
    exact ⟨entries, hdocument⟩

theorem Grammar.ofJson_verdict_mixed :
    mixedDocument.keyed = true ∧ flawedDocument.keyed = true ∧
      (∃ abstractGrammar entries, IsDocument mixedDocument abstractGrammar entries) ∧
      faults flawedDocument = [.nameNotString, .badFunction "Ann" (.missingField "args"),
        .missingSlot "Eng" 1] ∧
      ofJson flawedDocument = .error (.malformed .nameNotString) :=
  ⟨by decide, by decide, (ofJson_verdict (by decide)).1.1 ⟨_, rfl⟩, by decide,
    ((ofJson_verdict (by decide)).2.1 _).2 ⟨_, rfl, rfl⟩⟩

end GrammarExplorer
