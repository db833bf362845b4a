/-
What a grammar document says, and the grammar that is made of it.

A document says something when its parts do (`IsDocument`). Then there is a
grammar of it, and only then, and each of its concrete grammars has what its
entry says (`Converts`).
-/
import GrammarExplorer.Grammar.Load
import GrammarExplorer.Proofs.Grammar.Declaration
import GrammarExplorer.Proofs.Grammar.Shape

namespace GrammarExplorer

open Json

namespace Document

/-- Functions declared under their names, in the order of the object. -/
def IsDeclarations (v : Json) (fs : List AbstractFunction) : Prop :=
  ∃ members, v = .object members ∧
    List.Forall₂ (fun m f => m.1 = f.name ∧ IsFunction m.2 ⟨f.result, f.arguments⟩) members fs

/-- An abstract grammar: its name, which may be missing, its start category
and its functions. -/
def IsAbstract (v : Json) (g : AbstractGrammar) : Prop :=
  ∃ fields name, v = .object fields ∧
    Omissible (IsNullable IsText) none (member? fields "name") name ∧ g.name = name.getD "" ∧
    Required IsText (member? fields "startcat") g.startCategory ∧
    Required IsDeclarations (member? fields "funs") g.functions

theorem grammarName_eq_ok_iff {value : Option Json} {name : String} :
    grammarName value = .ok name ↔
      ∃ told, Omissible (IsNullable IsText) none value told ∧ name = told.getD "" := by
  rcases value with _ | v
  · simp [grammarName, Omissible, eq_comm]
  · cases v <;> simp [grammarName, Omissible, IsNullable, IsText, Option.exists, eq_comm]

theorem startCategory_eq_ok_iff {value : Option Json} {category : String} :
    startCategory value = .ok category ↔ Required IsText value category := by
  rcases value with _ | v
  · simp [startCategory, Required]
  · cases v <;> simp [startCategory, Required, IsText]

theorem declaration_eq_ok_iff {name : String} {v : Json} (hv : v.keyed = true)
    {f : AbstractFunction} :
    declaration name v = .ok f ↔ name = f.name ∧ IsFunction v ⟨f.result, f.arguments⟩ := by
  unfold declaration
  simp only [bind_eq_ok_iff, mapError_eq_ok_iff, decodes_function v _ hv]
  constructor
  · rintro ⟨e, he, ⟨⟩⟩
    exact ⟨rfl, he⟩
  · rintro ⟨rfl, he⟩
    exact ⟨_, he, rfl⟩

theorem declarations_eq_ok_iff {value : Option Json} (hv : ∀ v, value = some v → v.keyed = true)
    {fs : List AbstractFunction} :
    declarations value = .ok fs ↔ Required IsDeclarations value fs := by
  unfold declarations
  split
  · next members =>
    have hmembers := (keyed_object.1 (hv _ rfl)).2
    rw [mapM_eq_ok_iff,
      forall₂_congr_left fun m hm f => declaration_eq_ok_iff (hmembers m hm)]
    simp [Required, IsDeclarations]
  · next v hno =>
    have hno : ∀ members, v ≠ .object members := fun members heq => hno members (by rw [heq])
    simp [Required, IsDeclarations, hno]
  · simp [Required]

/-- The names of declared functions are the keys they are declared under. -/
theorem IsDeclarations.nodup {v : Json} {fs : List AbstractFunction} (h : IsDeclarations v fs)
    (hv : v.keyed = true) : (fs.map (·.name)).Nodup := by
  obtain ⟨members, rfl, hmembers⟩ := h
  exact nodup_names (keyed_object.1 hv).1 (hmembers.imp fun m f hf => hf.1)

theorem abstractPart_eq_ok_iff {document : Json} (hdocument : document.keyed = true)
    {g : AbstractGrammar} :
    abstractPart document = .ok g ↔
      ∃ members, document = .object members ∧
        Required IsAbstract (member? members "abstract") g := by
  cases document with
  | object members =>
    simp only [abstractPart, object.injEq, exists_eq_left']
    split
    · next habstract => simp [habstract, Required]
    · next fields habstract =>
      have hfuns : ∀ v, member? fields "funs" = some v → v.keyed = true := fun v hv =>
        keyed_of_member? (keyed_of_member? hdocument habstract) hv
      have hdeclared : ∀ fs, Required IsDeclarations (member? fields "funs") fs →
          (fs.map (·.name)).Nodup := by
        rintro fs ⟨v, hv, hfs⟩
        exact hfs.nodup (hfuns v hv)
      simp only [bind_eq_ok_iff, grammarName_eq_ok_iff, startCategory_eq_ok_iff,
        declarations_eq_ok_iff hfuns, habstract, Required, Option.some.injEq, exists_eq_left']
      constructor
      · rintro ⟨name, ⟨told, htold, rfl⟩, start, hstart, fs, hfs, ⟨⟩⟩
        rw [AbstractGrammar.ofDeclarations_of_nodup (hdeclared fs hfs)]
        exact ⟨fields, told, rfl, htold, rfl, hstart, hfs⟩
      · rintro ⟨_, told, ⟨⟩, htold, hname, hstart, hfs⟩
        refine ⟨_, ⟨told, htold, hname⟩, _, hstart, _, hfs, ?_⟩
        rw [AbstractGrammar.ofDeclarations_of_nodup (hdeclared _ hfs)]
        rfl
    · next v hno habstract =>
      have hno : ∀ fields, v ≠ .object fields := fun fields heq => hno fields (by rw [heq])
      simp [habstract, Required, IsAbstract, hno]
  | null | bool _ | number _ | string _ | array _ => simp [abstractPart]

/-! ## Symbols -/

/-- The word that a value stands for: a string for itself, and any other value
for its text as JSON. -/
inductive IsWord : Json → String → Prop
  | string (s : String) : IsWord (.string s) s
  | other (v : Json) (no_string : ∀ s, v ≠ .string s) : IsWord v v.compact

/-- The symbol of an entry: the words of a text with blanks between them, a
reference to an argument, or a token with all that is left of the entry. -/
inductive SymbolOf : SymbolEntry → Symbol → Prop
  | words (arguments : List Json) (words : List String)
    (each : List.Forall₂ IsWord arguments words) :
    SymbolOf ⟨"SymKS", arguments⟩ (.literal (" ".intercalate words))
  | slot (n : Nat) (rest : List Json) :
    SymbolOf ⟨"SymCat", .number (.integer n) :: rest⟩ (.category n)
  | token (tag : String) (arguments : List Json) (words : tag ≠ "SymKS") (slot : tag ≠ "SymCat") :
    SymbolOf ⟨tag, arguments⟩ (.token arguments)

theorem wordText_eq_iff {v : Json} {word : String} : wordText v = word ↔ IsWord v word := by
  constructor
  · rintro rfl
    cases v with
    | string s => exact .string s
    | null | bool _ | number _ | array _ | object _ => exact .other _ (by simp)
  · rintro (s | ⟨_, hno⟩)
    · rfl
    · cases v with
      | string s => exact absurd rfl (hno s)
      | null | bool _ | number _ | array _ | object _ => rfl

theorem map_wordText_eq_iff {arguments : List Json} {words : List String} :
    arguments.map wordText = words ↔ List.Forall₂ IsWord arguments words := by
  rw [← List.forall₂_eq_eq_eq, List.forall₂_map_left_iff]
  simp only [wordText_eq_iff]

theorem asNat?_eq_some_iff {v : Json} {n : Nat} : v.asNat? = some n ↔ IsIndex v n := by
  unfold asNat? IsIndex
  split
  · next i =>
    simp only [Option.ite_none_right_eq_some, Option.some.injEq, number.injEq,
      JsonNumber.integer.injEq]
    omega
  · next hno =>
    refine ⟨fun h => ?_, fun h => absurd h (hno _)⟩
    cases h

theorem SymbolEntry.symbol?_eq_some_iff {e : SymbolEntry} {symbol : Symbol} :
    e.symbol? = some symbol ↔ SymbolOf e symbol := by
  obtain ⟨tag, arguments⟩ := e
  unfold symbol?
  constructor
  · intro h
    split at h
    · next htag =>
      obtain rfl : tag = "SymKS" := by simpa using htag
      cases h
      exact .words arguments _ (map_wordText_eq_iff.1 rfl)
    · next hwords =>
      split at h
      · next htag =>
        obtain rfl : tag = "SymCat" := by simpa using htag
        simp only [Option.map_eq_some_iff, Option.bind_eq_some_iff, List.head?_eq_some_iff,
          asNat?_eq_some_iff] at h
        obtain ⟨n, ⟨v, ⟨rest, rfl⟩, rfl⟩, rfl⟩ := h
        exact .slot n rest
      · next hslot =>
        cases h
        exact .token tag arguments (by simpa using hwords) (by simpa using hslot)
  · rintro (⟨_, words, hwords⟩ | ⟨n, rest⟩ | ⟨_, _, hwords, hslot⟩)
    · simp [map_wordText_eq_iff.2 hwords]
    · simp [asNat?]
    · simp [hwords, hslot]

/-- Whether the entry says which argument it refers to, if it refers to one. -/
def SymbolEntry.Addressed (e : SymbolEntry) : Prop :=
  e.tag = "SymCat" → ∃ (n : Nat) (rest : List Json), e.arguments = .number (.integer n) :: rest

theorem SymbolEntry.exists_symbolOf_iff {e : SymbolEntry} :
    (∃ symbol, SymbolOf e symbol) ↔ e.Addressed := by
  constructor
  · rintro ⟨_, ⟨_, _, _⟩ | ⟨n, rest⟩ | ⟨_, _, _, hslot⟩⟩ htag
    · exact absurd htag (by simp)
    · exact ⟨n, rest, rfl⟩
    · exact absurd htag hslot
  · intro h
    obtain ⟨tag, arguments⟩ := e
    by_cases hslot : tag = "SymCat"
    · obtain ⟨n, rest, harguments⟩ := h hslot
      subst hslot harguments
      exact ⟨_, .slot n rest⟩
    by_cases hwords : tag = "SymKS"
    · subst hwords
      exact ⟨_, .words arguments _ (map_wordText_eq_iff.1 rfl)⟩
    · exact ⟨_, .token tag arguments hwords hslot⟩

theorem SymbolEntry.isSome_symbol?_iff {e : SymbolEntry} :
    e.symbol?.isSome = true ↔ e.Addressed := by
  rw [Option.isSome_iff_exists, ← exists_symbolOf_iff]
  simp only [symbol?_eq_some_iff]

/-! ## Concrete grammars -/

/-- A concrete grammar that has what its entry says: the same functions in the
same places, its sequences symbol by symbol, and of the productions of each
category those that have a function. -/
structure Converts (id : String) (e : ConcreteEntry) (c : ConcreteGrammar) : Prop where
  id_eq : c.id = id
  languageTag_eq : c.languageTag = e.flags.language.getD id
  functions_eq : c.functions = e.functions
  sequences : List.Forall₂ (List.Forall₂ SymbolOf) e.sequences c.sequences
  productionsFor_eq : ∀ category,
    c.productionsFor category =
      ((lookup? e.productions category).getD []).filterMap (·.function)
  ranges_eq : c.ranges = e.ranges
  totalFids_eq : c.totalFids = e.totalFids

theorem lookup?_map {α β : Type} (f : α → β) (entries : List (String × α)) (key : String) :
    lookup? (entries.map fun e => (e.1, f e.2)) key = (lookup? entries key).map f := by
  unfold lookup?
  rw [List.find?_map, Option.map_map, Option.map_map]
  rfl

namespace ConcreteEntry

variable {id : String} {e : ConcreteEntry}

theorem sequenceSymbols_eq_ok_iff {sequence : Nat} {entries : List SymbolEntry}
    {symbols : List Symbol} :
    sequenceSymbols id sequence entries = .ok symbols ↔ List.Forall₂ SymbolOf entries symbols := by
  unfold sequenceSymbols
  rw [mapM_eq_ok_iff]
  refine forall₂_congr_left fun s _ symbol => ?_
  rw [← SymbolEntry.symbol?_eq_some_iff]
  cases s.symbol? <;> simp

theorem allSequences_eq_ok_iff {sequences : List (List Symbol)} :
    e.allSequences id = .ok sequences ↔
      List.Forall₂ (List.Forall₂ SymbolOf) e.sequences sequences := by
  unfold allSequences
  rw [mapM_eq_ok_iff, ← List.zipIdx_map_fst 0 e.sequences, List.forall₂_map_left_iff,
    List.zipIdx_map_fst 0 e.sequences]
  exact forall₂_congr_left fun _ _ _ => sequenceSymbols_eq_ok_iff

theorem converts_of_concrete {c : ConcreteGrammar} (h : e.concrete id = .ok c) :
    Converts id e c := by
  obtain ⟨sequences, hsequences, ⟨⟩⟩ := exists_of_bind_eq_ok h
  refine ⟨rfl, rfl, rfl, allSequences_eq_ok_iff.1 hsequences, fun category => ?_, rfl, rfl⟩
  rw [ConcreteGrammar.productionsFor, lookup?_map]
  cases lookup? e.productions category <;> rfl

/-- Whether every reference to an argument says to which. -/
def Addressed (e : ConcreteEntry) : Prop :=
  ∀ entries ∈ e.sequences, ∀ s ∈ entries, s.Addressed

theorem exists_concrete_iff : (∃ c, e.concrete id = .ok c) ↔ e.Addressed := by
  have hconcrete : (∃ c, e.concrete id = .ok c) ↔
      ∃ sequences, e.allSequences id = .ok sequences := by
    constructor
    · rintro ⟨c, hc⟩
      obtain ⟨sequences, hsequences, -⟩ := exists_of_bind_eq_ok hc
      exact ⟨sequences, hsequences⟩
    · rintro ⟨sequences, hsequences⟩
      exact ⟨_, bind_eq_ok_iff.2 ⟨sequences, hsequences, rfl⟩⟩
  simp only [hconcrete, allSequences_eq_ok_iff, exists_forall₂_iff,
    SymbolEntry.exists_symbolOf_iff, Addressed]

end ConcreteEntry

/-! ## Documents -/

/-- An entry of a concrete grammar that can be made of it. -/
def IsUsable (v : Json) (e : ConcreteEntry) : Prop := IsConcrete v e ∧ e.Addressed

/-- What a document says: an abstract grammar, and under each id the entry of a
concrete grammar, if there are any. -/
def IsDocument (document : Json) (abstractGrammar : AbstractGrammar)
    (entries : List (String × ConcreteEntry)) : Prop :=
  ∃ members told, document = .object members ∧
    Required IsAbstract (member? members "abstract") abstractGrammar ∧
    Omissible (IsNullable (IsDictionary IsUsable)) none (member? members "concretes") told ∧
    entries = told.getD []

/-- The concrete grammar made of an entry, and what is odd about the entry. -/
def IsPart (e : String × ConcreteEntry) (part : ConcreteGrammar × List Notice) : Prop :=
  e.2.concrete e.1 = .ok part.1 ∧ part.2 = e.2.notices e.1

theorem concretePart_eq_ok_iff {id : String} {v : Json} (hv : v.keyed = true)
    {part : ConcreteGrammar × List Notice} :
    concretePart id v = .ok part ↔ ∃ e, IsConcrete v e ∧ IsPart (id, e) part := by
  simp only [concretePart, concreteEntry, bind_eq_ok_iff, mapError_eq_ok_iff,
    decodes_concrete v _ hv]
  refine exists_congr fun e => and_congr_right fun _ => ?_
  constructor
  · rintro ⟨c, hc, ⟨⟩⟩
    exact ⟨hc, rfl⟩
  · rintro ⟨hc, hnotices⟩
    exact ⟨_, hc, congrArg Except.ok (Prod.ext rfl hnotices.symm)⟩

theorem concreteParts_eq_ok_iff {members : List (String × Json)}
    (h : (Json.object members).keyed = true) {parts : List (ConcreteGrammar × List Notice)} :
    (members.mapM fun m => concretePart m.1 m.2) = .ok parts ↔
      ∃ entries, IsDictionary IsUsable (.object members) entries ∧
        List.Forall₂ IsPart entries parts := by
  simp only [mapM_eq_ok_iff, IsDictionary, object.injEq, exists_eq_left']
  rw [← forall₂_comp_iff]
  refine forall₂_congr_left fun m hm part => ?_
  rw [concretePart_eq_ok_iff ((keyed_object.1 h).2 m hm)]
  constructor
  · rintro ⟨e, he, hpart⟩
    have haddressed := ConcreteEntry.exists_concrete_iff.1 ⟨_, hpart.1⟩
    exact ⟨(m.1, e), ⟨rfl, he, haddressed⟩, hpart⟩
  · rintro ⟨⟨id, e⟩, ⟨rfl, he, -⟩, hpart⟩
    exact ⟨e, he, hpart⟩

/-- What is made of the concrete grammars of a document, which may be
missing. -/
theorem concretesPart_eq_ok_iff {members : List (String × Json)}
    (h : (Json.object members).keyed = true) {parts : List (ConcreteGrammar × List Notice)} :
    (∃ found, concreteMembers (.object members) = .ok found ∧
      (found.mapM fun m => concretePart m.1 m.2) = .ok parts) ↔
      ∃ told,
        Omissible (IsNullable (IsDictionary IsUsable)) none (member? members "concretes") told ∧
        List.Forall₂ IsPart (told.getD []) parts := by
  have hvalue : ∀ v, member? members "concretes" = some v → v.keyed = true := fun v hv =>
    keyed_of_member? h hv
  simp only [concreteMembers, field?]
  generalize member? members "concretes" = value at hvalue
  rcases value with _ | v
  · simp [Omissible, pure, Except.pure, eq_comm]
  · cases v with
    | null => simp [Omissible, IsNullable, IsDictionary, Option.exists, pure, Except.pure, eq_comm]
    | object found =>
      simp [Omissible, IsNullable, Option.exists, concreteParts_eq_ok_iff (hvalue _ rfl)]
    | bool _ | number _ | string _ | array _ =>
      simp [Omissible, IsNullable, Option.exists, IsDictionary]

theorem IsDocument.exists_parts {document : Json} {abstractGrammar : AbstractGrammar}
    {entries : List (String × ConcreteEntry)} (h : IsDocument document abstractGrammar entries) :
    ∃ parts, List.Forall₂ IsPart entries parts := by
  obtain ⟨members, told, -, -, htold, rfl⟩ := h
  refine exists_forall₂_iff.2 fun e he => ?_
  have haddressed : e.2.Addressed := by
    rcases told with _ | entries
    · exact absurd he List.not_mem_nil
    cases hvalue : member? members "concretes" with
    | none =>
      rw [hvalue] at htold
      cases htold
    | some v =>
      rw [hvalue] at htold
      obtain ⟨w, hw⟩ := htold.2.forall_mem e he
      exact hw.2
  obtain ⟨c, hc⟩ := ConcreteEntry.exists_concrete_iff.2 haddressed
  exact ⟨(c, _), hc, rfl⟩

/-- What a document says becomes a grammar, and nothing else does. -/
theorem grammar_eq_ok_iff {document : Json} (h : document.keyed = true) {g : Grammar} :
    grammar document = .ok g ↔
      ∃ entries parts, IsDocument document g.abstractGrammar entries ∧
        List.Forall₂ IsPart entries parts ∧ g.concretes = parts.map (·.1) ∧
        g.diagnostics =
          Diagnostic.noteAll [] (parts.flatMap fun part => part.2.map Notice.diagnostic) := by
  unfold grammar
  simp only [bind_eq_ok_iff, abstractPart_eq_ok_iff h]
  constructor
  · rintro ⟨abstractGrammar, ⟨members, rfl, habstract⟩, found, hfound, parts, hparts, ⟨⟩⟩
    obtain ⟨told, htold, hpart⟩ := (concretesPart_eq_ok_iff h).1 ⟨found, hfound, hparts⟩
    exact ⟨_, parts, ⟨members, told, rfl, habstract, htold, rfl⟩, hpart, rfl, rfl⟩
  · rintro ⟨_, parts, ⟨members, told, rfl, habstract, htold, rfl⟩, hpart, hconcretes, hdiagnostics⟩
    obtain ⟨found, hfound, hparts⟩ := (concretesPart_eq_ok_iff h).2 ⟨told, htold, hpart⟩
    refine ⟨_, ⟨members, rfl, habstract⟩, found, hfound, parts, hparts, ?_⟩
    rw [← hconcretes, ← hdiagnostics]
    rfl

theorem exists_grammar_iff {document : Json} (h : document.keyed = true) :
    (∃ g, grammar document = .ok g) ↔
      ∃ abstractGrammar entries, IsDocument document abstractGrammar entries := by
  constructor
  · rintro ⟨g, hg⟩
    obtain ⟨entries, parts, hdocument, -⟩ := (grammar_eq_ok_iff h).1 hg
    exact ⟨_, entries, hdocument⟩
  · rintro ⟨abstractGrammar, entries, hdocument⟩
    obtain ⟨parts, hparts⟩ := hdocument.exists_parts
    exact ⟨⟨abstractGrammar, _, _⟩,
      (grammar_eq_ok_iff h).2 ⟨entries, parts, hdocument, hparts, rfl, rfl⟩⟩

end Document

end GrammarExplorer
