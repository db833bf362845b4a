/-
The records that a grammar document is made of, and how they are decoded.
-/
import GrammarExplorer.Grammar.Concrete
import GrammarExplorer.Json.Decode

namespace GrammarExplorer.Document

open Json

/-! ## Functions of the abstract grammar -/

structure FunctionEntry where
  category : String
  arguments : List String

structure FunctionDraft where
  category : Option String
  arguments : Option (List String)

def functionRecord : RecordDecoder FunctionDraft FunctionEntry where
  title := "RawFunction"
  fields := [⟨"cat", false⟩, ⟨"args", false⟩]
  blank := ⟨none, none⟩
  put d key v := match key with
    | "cat" => do return { d with category := some (← decodeString v) }
    | "args" => do return { d with arguments := some (← decodeList decodeString v) }
    | _ => .ok d
  finish d := match d.category, d.arguments with
    | none, _ => .error (.missingField "cat")
    | _, none => .error (.missingField "args")
    | some category, some arguments => .ok ⟨category, arguments⟩

/-! ## Parts of a concrete grammar -/

structure FlagsEntry where
  language : Option String

def flagsRecord : RecordDecoder FlagsEntry FlagsEntry where
  title := "RawFlags"
  fields := [⟨"language", false⟩]
  blank := ⟨none⟩
  put d key v := match key with
    | "language" => do return { d with language := ← decodeOptional decodeString v }
    | _ => .ok d
  finish d := .ok d

/-- A production, which names a function by its place in the table unless
it only passes one category off as another. -/
structure ProductionEntry where
  tag : String
  function : Option Nat

def productionRecord : RecordDecoder ProductionEntry ProductionEntry where
  title := "RawProduction"
  fields := [⟨"type", true⟩, ⟨"fid", true⟩]
  blank := ⟨"", none⟩
  put d key v := match key with
    | "type" => do return { d with tag := ← decodeString v }
    | "fid" => do return { d with function := ← decodeOptional decodeIndex v }
    | _ => .ok d
  finish d := .ok d

structure ConcreteFunctionDraft where
  name : Option String
  linearizations : List Nat

def concreteFunctionRecord : RecordDecoder ConcreteFunctionDraft ConcreteFunction where
  title := "RawConcreteFunction"
  fields := [⟨"name", false⟩, ⟨"lins", true⟩]
  blank := ⟨none, []⟩
  put d key v := match key with
    | "name" => do return { d with name := some (← decodeString v) }
    | "lins" => do return { d with linearizations := ← decodeList decodeIndex v }
    | _ => .ok d
  finish d := match d.name with
    | none => .error (.missingField "name")
    | some name => .ok ⟨name, d.linearizations⟩

structure SymbolEntry where
  tag : String
  arguments : List Json

structure SymbolDraft where
  tag : Option String
  arguments : List Json

def symbolRecord : RecordDecoder SymbolDraft SymbolEntry where
  title := "RawSymbol"
  fields := [⟨"type", false⟩, ⟨"args", true⟩]
  blank := ⟨none, []⟩
  put d key v := match key with
    | "type" => do return { d with tag := some (← decodeString v) }
    | "args" => do return { d with arguments := ← decodeList decodeAny v }
    | _ => .ok d
  finish d := match d.tag with
    | none => .error (.missingField "type")
    | some tag => .ok ⟨tag, d.arguments⟩

structure RangeDraft where
  first : Option Int
  last : Option Int

def rangeRecord : RecordDecoder RangeDraft CategoryRange where
  title := "RawCategoryRange"
  fields := [⟨"start", false⟩, ⟨"end", false⟩]
  blank := ⟨none, none⟩
  put d key v := match key with
    | "start" => do return { d with first := some (← decodeInteger v) }
    | "end" => do return { d with last := some (← decodeInteger v) }
    | _ => .ok d
  finish d := match d.first, d.last with
    | none, _ => .error (.missingField "start")
    | _, none => .error (.missingField "end")
    | some first, some last => .ok ⟨first, last⟩

/-! ## Concrete grammars -/

structure ConcreteEntry where
  flags : FlagsEntry
  productions : List (String × List ProductionEntry)
  functions : List ConcreteFunction
  sequences : List (List SymbolEntry)
  ranges : List (String × CategoryRange)
  totalFids : Option Nat

def concreteRecord : RecordDecoder ConcreteEntry ConcreteEntry where
  title := "RawConcrete"
  fields := [⟨"flags", true⟩, ⟨"productions", true⟩, ⟨"functions", true⟩, ⟨"sequences", true⟩,
    ⟨"categories", true⟩, ⟨"totalfids", false⟩]
  blank := ⟨⟨none⟩, [], [], [], [], none⟩
  put d key v := match key with
    | "flags" => do return { d with flags := ← flagsRecord.decode v }
    | "productions" => do
      return { d with
        productions := ← decodeDictionary (decodeList productionRecord.decode) v }
    | "functions" => do
      return { d with functions := ← decodeList concreteFunctionRecord.decode v }
    | "sequences" => do
      return { d with sequences := ← decodeList (decodeList symbolRecord.decode) v }
    | "categories" => do
      return { d with ranges := ← decodeDictionary rangeRecord.decode v }
    | "totalfids" => do return { d with totalFids := ← decodeOptional decodeIndex v }
    | _ => .ok d
  finish d := .ok d

end GrammarExplorer.Document
