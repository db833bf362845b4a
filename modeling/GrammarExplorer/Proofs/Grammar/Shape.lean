/-
What the parts of a grammar document say.

For every kind of record in a document there is a relation between JSON values
and entries, and the decoder of that record does what the relation says. All
that is needed of a decoder is which part of its draft is kept for which field
(`HasParts`).
-/
import GrammarExplorer.Grammar.Document
import GrammarExplorer.Proofs.Json.Shape

namespace GrammarExplorer.Document

open Json

/-! ## Functions of the abstract grammar -/

/-- A function: its category and those of its arguments. -/
def IsFunction (v : Json) (e : FunctionEntry) : Prop :=
  ∃ field, IsRecord ["cat", "args"] 2 v field ∧
    Required IsText (field "cat") e.category ∧ Required (IsList IsText) (field "args") e.arguments

def functionParts : List (DraftPart FunctionDraft) := [
  { name := "cat", decode := mandatory decodeString, missing := none
    get := (·.category), set := fun d c => { d with category := c } },
  { name := "args", decode := mandatory (decodeList decodeString), missing := none
    get := (·.arguments), set := fun d c => { d with arguments := c } }]

theorem hasParts_functionRecord : functionRecord.HasParts 2 functionParts where
  names_eq := rfl
  nodup := by decide
  missingAfter_eq_none := by decide
  blank d := by
    obtain ⟨category, arguments⟩ := d
    simp [functionParts, functionRecord]
  put_eq := by simp [functionParts, functionRecord, mandatory]
  apart := by simp [functionParts, DraftPart.Apart]

theorem finish_functionRecord {d : FunctionDraft} {e : FunctionEntry} :
    functionRecord.finish d = .ok e ↔ d = ⟨some e.category, some e.arguments⟩ := by
  obtain ⟨_ | category, _ | arguments⟩ := d <;> cases e <;> simp [functionRecord]

theorem decodes_function : Decodes functionRecord.decode IsFunction := by
  intro v e hv
  rw [hasParts_functionRecord.decode_eq_ok_iff hv]
  refine exists_congr fun field => and_congr_right fun hrecord => ?_
  have hcat := mandatory_iff decodes_string (hrecord.keyed hv "cat")
  have hargs := mandatory_iff decodes_string.list (hrecord.keyed hv "args")
  simp [finish_functionRecord, Filled, functionParts, DraftPart.Holds, hcat, hargs]

/-! ## Parts of a concrete grammar -/

/-- The flags: a language, if any is told. -/
def IsFlags (v : Json) (e : FlagsEntry) : Prop :=
  ∃ field, IsRecord ["language"] 1 v field ∧
    Omissible (IsNullable IsText) none (field "language") e.language

def flagsParts : List (DraftPart FlagsEntry) := [
  { name := "language", decode := decodeOptional decodeString, missing := none
    get := (·.language), set := fun d c => { d with language := c } }]

theorem hasParts_flagsRecord : flagsRecord.HasParts 1 flagsParts where
  names_eq := rfl
  nodup := by decide
  missingAfter_eq_none := by decide
  blank d := by
    obtain ⟨language⟩ := d
    simp [flagsParts, flagsRecord]
  put_eq := by simp [flagsParts, flagsRecord]
  apart := by simp [flagsParts]

theorem decodes_flags : Decodes flagsRecord.decode IsFlags := by
  intro v e hv
  rw [hasParts_flagsRecord.decode_eq_ok_iff hv]
  refine exists_congr fun field => and_congr_right fun hrecord => ?_
  have hlanguage := omissible_iff decodes_string.optional (hrecord.keyed hv "language")
  simp [flagsRecord, Filled, flagsParts, DraftPart.Holds, hlanguage]

/-- A production: its kind, and its function, if it has any. -/
def IsProduction (v : Json) (e : ProductionEntry) : Prop :=
  ∃ field, IsRecord ["type", "fid"] 0 v field ∧
    Omissible IsText "" (field "type") e.tag ∧
    Omissible (IsNullable IsIndex) none (field "fid") e.function

def productionParts : List (DraftPart ProductionEntry) := [
  { name := "type", decode := decodeString, missing := ""
    get := (·.tag), set := fun d c => { d with tag := c } },
  { name := "fid", decode := decodeOptional decodeIndex, missing := none
    get := (·.function), set := fun d c => { d with function := c } }]

theorem hasParts_productionRecord : productionRecord.HasParts 0 productionParts where
  names_eq := rfl
  nodup := by decide
  missingAfter_eq_none := by decide
  blank d := by
    obtain ⟨tag, function⟩ := d
    simp [productionParts, productionRecord]
  put_eq := by simp [productionParts, productionRecord]
  apart := by simp [productionParts, DraftPart.Apart]

theorem decodes_production : Decodes productionRecord.decode IsProduction := by
  intro v e hv
  rw [hasParts_productionRecord.decode_eq_ok_iff hv]
  refine exists_congr fun field => and_congr_right fun hrecord => ?_
  have htype := omissible_iff decodes_string (hrecord.keyed hv "type")
  have hfid := omissible_iff decodes_index.optional (hrecord.keyed hv "fid")
  simp [productionRecord, Filled, productionParts, DraftPart.Holds, htype, hfid]

/-- A function of a concrete grammar: its name and its linearizations. -/
def IsConcreteFunction (v : Json) (f : ConcreteFunction) : Prop :=
  ∃ field, IsRecord ["name", "lins"] 1 v field ∧
    Required IsText (field "name") f.name ∧
    Omissible (IsList IsIndex) [] (field "lins") f.linearizations

def concreteFunctionParts : List (DraftPart ConcreteFunctionDraft) := [
  { name := "name", decode := mandatory decodeString, missing := none
    get := (·.name), set := fun d c => { d with name := c } },
  { name := "lins", decode := decodeList decodeIndex, missing := []
    get := (·.linearizations), set := fun d c => { d with linearizations := c } }]

theorem hasParts_concreteFunctionRecord :
    concreteFunctionRecord.HasParts 1 concreteFunctionParts where
  names_eq := rfl
  nodup := by decide
  missingAfter_eq_none := by decide
  blank d := by
    obtain ⟨name, linearizations⟩ := d
    simp [concreteFunctionParts, concreteFunctionRecord]
  put_eq := by simp [concreteFunctionParts, concreteFunctionRecord, mandatory]
  apart := by simp [concreteFunctionParts, DraftPart.Apart]

theorem finish_concreteFunctionRecord {d : ConcreteFunctionDraft} {f : ConcreteFunction} :
    concreteFunctionRecord.finish d = .ok f ↔ d = ⟨some f.name, f.linearizations⟩ := by
  obtain ⟨_ | name, linearizations⟩ := d <;> cases f <;> simp [concreteFunctionRecord]

theorem decodes_concreteFunction : Decodes concreteFunctionRecord.decode IsConcreteFunction := by
  intro v f hv
  rw [hasParts_concreteFunctionRecord.decode_eq_ok_iff hv]
  refine exists_congr fun field => and_congr_right fun hrecord => ?_
  have hname := mandatory_iff decodes_string (hrecord.keyed hv "name")
  have hlins := omissible_iff decodes_index.list (hrecord.keyed hv "lins")
  simp [finish_concreteFunctionRecord, Filled, concreteFunctionParts, DraftPart.Holds, hname, hlins]

/-- A symbol: its kind and its arguments, which can be anything. -/
def IsSymbol (v : Json) (e : SymbolEntry) : Prop :=
  ∃ field, IsRecord ["type", "args"] 1 v field ∧
    Required IsText (field "type") e.tag ∧
    Omissible (IsList (· = ·)) [] (field "args") e.arguments

def symbolParts : List (DraftPart SymbolDraft) := [
  { name := "type", decode := mandatory decodeString, missing := none
    get := (·.tag), set := fun d c => { d with tag := c } },
  { name := "args", decode := decodeList decodeAny, missing := []
    get := (·.arguments), set := fun d c => { d with arguments := c } }]

theorem hasParts_symbolRecord : symbolRecord.HasParts 1 symbolParts where
  names_eq := rfl
  nodup := by decide
  missingAfter_eq_none := by decide
  blank d := by
    obtain ⟨tag, arguments⟩ := d
    simp [symbolParts, symbolRecord]
  put_eq := by simp [symbolParts, symbolRecord, mandatory]
  apart := by simp [symbolParts, DraftPart.Apart]

theorem finish_symbolRecord {d : SymbolDraft} {e : SymbolEntry} :
    symbolRecord.finish d = .ok e ↔ d = ⟨some e.tag, e.arguments⟩ := by
  obtain ⟨_ | tag, arguments⟩ := d <;> cases e <;> simp [symbolRecord]

theorem decodes_symbol : Decodes symbolRecord.decode IsSymbol := by
  intro v e hv
  rw [hasParts_symbolRecord.decode_eq_ok_iff hv]
  refine exists_congr fun field => and_congr_right fun hrecord => ?_
  have htype := mandatory_iff decodes_string (hrecord.keyed hv "type")
  have hargs := omissible_iff decodes_any.list (hrecord.keyed hv "args")
  simp [finish_symbolRecord, Filled, symbolParts, DraftPart.Holds, htype, hargs]

/-- The range of a category: its first and its last number. -/
def IsRange (v : Json) (r : CategoryRange) : Prop :=
  ∃ field, IsRecord ["start", "end"] 2 v field ∧
    Required IsInteger (field "start") r.first ∧ Required IsInteger (field "end") r.last

def rangeParts : List (DraftPart RangeDraft) := [
  { name := "start", decode := mandatory decodeInteger, missing := none
    get := (·.first), set := fun d c => { d with first := c } },
  { name := "end", decode := mandatory decodeInteger, missing := none
    get := (·.last), set := fun d c => { d with last := c } }]

theorem hasParts_rangeRecord : rangeRecord.HasParts 2 rangeParts where
  names_eq := rfl
  nodup := by decide
  missingAfter_eq_none := by decide
  blank d := by
    obtain ⟨first, last⟩ := d
    simp [rangeParts, rangeRecord]
  put_eq := by simp [rangeParts, rangeRecord, mandatory]
  apart := by simp [rangeParts, DraftPart.Apart]

theorem finish_rangeRecord {d : RangeDraft} {r : CategoryRange} :
    rangeRecord.finish d = .ok r ↔ d = ⟨some r.first, some r.last⟩ := by
  obtain ⟨_ | first, _ | last⟩ := d <;> cases r <;> simp [rangeRecord]

theorem decodes_range : Decodes rangeRecord.decode IsRange := by
  intro v r hv
  rw [hasParts_rangeRecord.decode_eq_ok_iff hv]
  refine exists_congr fun field => and_congr_right fun hrecord => ?_
  have hstart := mandatory_iff decodes_integer (hrecord.keyed hv "start")
  have hend := mandatory_iff decodes_integer (hrecord.keyed hv "end")
  simp [finish_rangeRecord, Filled, rangeParts, DraftPart.Holds, hstart, hend]

/-! ## Concrete grammars -/

/-- A concrete grammar. Whatever it does not have is empty. -/
def IsConcrete (v : Json) (e : ConcreteEntry) : Prop :=
  ∃ field, IsRecord
      ["flags", "productions", "functions", "sequences", "categories", "totalfids"] 6 v field ∧
    Omissible IsFlags ⟨none⟩ (field "flags") e.flags ∧
    Omissible (IsDictionary (IsList IsProduction)) [] (field "productions") e.productions ∧
    Omissible (IsList IsConcreteFunction) [] (field "functions") e.functions ∧
    Omissible (IsList (IsList IsSymbol)) [] (field "sequences") e.sequences ∧
    Omissible (IsDictionary IsRange) [] (field "categories") e.ranges ∧
    Omissible (IsNullable IsIndex) none (field "totalfids") e.totalFids

def concreteParts : List (DraftPart ConcreteEntry) := [
  { name := "flags", decode := flagsRecord.decode, missing := ⟨none⟩
    get := (·.flags), set := fun d c => { d with flags := c } },
  { name := "productions", decode := decodeDictionary (decodeList productionRecord.decode)
    missing := [], get := (·.productions), set := fun d c => { d with productions := c } },
  { name := "functions", decode := decodeList concreteFunctionRecord.decode, missing := []
    get := (·.functions), set := fun d c => { d with functions := c } },
  { name := "sequences", decode := decodeList (decodeList symbolRecord.decode), missing := []
    get := (·.sequences), set := fun d c => { d with sequences := c } },
  { name := "categories", decode := decodeDictionary rangeRecord.decode, missing := []
    get := (·.ranges), set := fun d c => { d with ranges := c } },
  { name := "totalfids", decode := decodeOptional decodeIndex, missing := none
    get := (·.totalFids), set := fun d c => { d with totalFids := c } }]

theorem hasParts_concreteRecord : concreteRecord.HasParts 6 concreteParts where
  names_eq := rfl
  nodup := by decide
  missingAfter_eq_none := by decide
  blank d := by
    obtain ⟨flags, productions, functions, sequences, ranges, totalFids⟩ := d
    simp [concreteParts, concreteRecord]
  put_eq := by simp [concreteParts, concreteRecord]
  apart := by simp [concreteParts, DraftPart.Apart]

theorem decodes_concrete : Decodes concreteRecord.decode IsConcrete := by
  intro v e hv
  rw [hasParts_concreteRecord.decode_eq_ok_iff hv]
  refine exists_congr fun field => and_congr_right fun hrecord => ?_
  have hflags := omissible_iff decodes_flags (hrecord.keyed hv "flags")
  have hproductions :=
    omissible_iff decodes_production.list.dictionary (hrecord.keyed hv "productions")
  have hfunctions := omissible_iff decodes_concreteFunction.list (hrecord.keyed hv "functions")
  have hsequences := omissible_iff decodes_symbol.list.list (hrecord.keyed hv "sequences")
  have hcategories := omissible_iff decodes_range.dictionary (hrecord.keyed hv "categories")
  have htotal := omissible_iff decodes_index.optional (hrecord.keyed hv "totalfids")
  simp [concreteRecord, Filled, concreteParts, DraftPart.Holds, hflags, hproductions, hfunctions,
    hsequences, hcategories, htotal]

end GrammarExplorer.Document
