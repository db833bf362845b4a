/-
What a session remarks on, over a whole run.

Three parts of the program find diagnostics: the loader, the builder, and the
selections in a language. Each part finds its own kinds (`Stage`), so entries
of different parts never agree, and within a part each entry is noted once. A
run only adds to the list (`diagnostics_run`): what its operations find, in
the order of the operations (`discoveries`), each entry where it is found
first.
-/
import GrammarExplorer.Proofs.Derivation.Reachability
import GrammarExplorer.Proofs.Grammar.Load
import GrammarExplorer.Proofs.Linearization.Resolution
import GrammarExplorer.Proofs.Session.Offers

namespace GrammarExplorer

/-! ## Who finds what -/

/-- The parts of the program that find diagnostics. -/
inductive Stage
  | load
  | build
  | edit
  deriving DecidableEq

/-- The part of the program that finds diagnostics of this kind. -/
def Diagnostic.stage : Diagnostic → Stage
  | unknownSymbol _ | productionWithoutFunction _ _ => .load
  | unknownCategory _ => .build
  | outOfRangeSlot _ _ => .edit

theorem Notice.stage_diagnostic (n : Notice) : n.diagnostic.stage = .load := by
  cases n <;> rfl

theorem nodup_diagnostics_load {document : Json} {g : Grammar}
    (h : Document.grammar document = .ok g) :
    g.diagnostics.Nodup ∧ ∀ d ∈ g.diagnostics, d.stage = .load := by
  obtain ⟨notices, hnotices⟩ := Document.diagnostics_grammar h
  rw [hnotices]
  refine ⟨Diagnostic.nodup_noteAll List.nodup_nil _, fun d hd => ?_⟩
  rw [Diagnostic.mem_noteAll] at hd
  obtain ⟨n, -, rfl⟩ := List.mem_map.1 (hd.resolve_left List.not_mem_nil)
  exact n.stage_diagnostic

theorem nodup_diagnostics_build (g : AbstractGrammar) (category : String) :
    (DerivationTree.build g category).diagnostics.Nodup ∧
      ∀ d ∈ (DerivationTree.build g category).diagnostics, d.stage = .build := by
  rw [DerivationTree.diagnostics_build]
  refine ⟨Diagnostic.nodup_noteAll List.nodup_nil _, fun d hd => ?_⟩
  rw [Diagnostic.mem_noteAll] at hd
  obtain ⟨role, -, hremark⟩ := List.mem_filterMap.1 (hd.resolve_left List.not_mem_nil)
  unfold Builder.remark? at hremark
  split at hremark
  · cases hremark
    rfl
  · cases hremark

/-! ## What a function's sequences lack -/

namespace ConcreteGrammar

/-- The references past the last argument in the sequences of a function, in
the order of its linearizations. -/
def missingSlots (g : ConcreteGrammar) (f : ConcreteFunction) (arity : Nat) : List Nat :=
  f.linearizations.flatMap fun index =>
    Linearization.missingSlots ((g.sequences[index]?).getD []) arity

theorem mem_missingSlots {g : ConcreteGrammar} {f : ConcreteFunction} {arity slot : Nat} :
    slot ∈ g.missingSlots f arity ↔ arity ≤ slot ∧ ∃ index ∈ f.linearizations, ∃ symbols,
      g.sequences[index]? = some symbols ∧ Symbol.category slot ∈ symbols := by
  simp only [missingSlots, List.mem_flatMap, Linearization.missingSlots, List.mem_filterMap,
    Symbol.missingSlot?_eq_some_iff]
  constructor
  · rintro ⟨index, hindex, symbol, hmem, rfl, hle⟩
    cases hs : g.sequences[index]? with
    | none => simp [hs] at hmem
    | some symbols => exact ⟨hle, index, hindex, symbols, hs, by simpa [hs] using hmem⟩
  · rintro ⟨hle, index, hindex, symbols, hs, hmem⟩
    exact ⟨index, hindex, _, by simpa [hs] using hmem, rfl, hle⟩

/-- Putting a function into words finds each of these once. -/
theorem diagnostics_wording (g : ConcreteGrammar) (f : ConcreteFunction) (arguments : List String) :
    (Linearization.wording f g.sequences arguments).diagnostics
      = ((g.missingSlots f arguments.length).map
          fun slot => .outOfRangeSlot slot arguments.length).eraseDups := by
  simp only [Linearization.wording, Diagnostic.noteAll_nil, missingSlots, List.map_flatMap]
  congr 2
  funext index
  cases g.sequences[index]? <;> rfl

end ConcreteGrammar

namespace Session

/-! ## What operations find -/

/-- The function that a name stands for in the language of the mode, with the
grammar of that language. -/
def functionInMode? (s : Session) (name : String) : Option (ConcreteGrammar × ConcreteFunction) :=
  match s.mode with
  | .abstractNames => none
  | .concrete grammarId =>
    (s.grammar.concrete? grammarId).bind fun g => (g.function? name).map (g, ·)

theorem functionInMode?_eq_some_iff {s : Session} {name : String} {g : ConcreteGrammar}
    {f : ConcreteFunction} : s.functionInMode? name = some (g, f) ↔
      ∃ grammarId, s.mode = .concrete grammarId ∧ s.grammar.concrete? grammarId = some g ∧
        g.function? name = some f := by
  unfold functionInMode?
  cases s.mode with
  | abstractNames => simp
  | concrete grammarId =>
    simp only [DisplayMode.concrete.injEq, exists_eq_left', Option.bind_eq_some_iff,
      Option.map_eq_some_iff, Prod.mk.injEq]
    constructor
    · rintro ⟨c, hc, e, he, rfl, rfl⟩
      exact ⟨hc, he⟩
    · rintro ⟨hg, hf⟩
      exact ⟨g, hg, f, hf, rfl, rfl⟩

/-- What an operation finds: a selection in a language, unless it is refused,
finds the references past the last argument in the sequences of the chosen
function. -/
def findings (s : Session) : Operation → List Diagnostic
  | .select id chosen =>
    match s.functionInMode? chosen with
    | some (g, f) =>
      if s.tree.contains id then
        let arity := (s.argumentsOf chosen).length
        (g.missingSlots f arity).map (.outOfRangeSlot · arity)
      else []
    | none => []
  | .reset _ | .resetAll | .setMode _ | .setLanguage _ | .setSeparator _ => []

/-- What the operations of a run find, one operation after the other. -/
def discoveries (s : Session) : List Operation → List Diagnostic
  | [] => []
  | o :: os => s.findings o ++ discoveries (s.apply o).1 os

/-- What an operation finds, said of the diagnostic: the operation is a
selection that is not refused, made in a language; and some sequence of the
chosen function refers to an argument past the last of those that the abstract
grammar gives the function. -/
inductive Finds (s : Session) : Operation → Diagnostic → Prop
  | slot {id : Nat} {chosen grammarId : String} {next : Session} {g : ConcreteGrammar}
    {f : ConcreteFunction} {index slot : Nat} {symbols : List Symbol}
    (accepted : s.select id chosen = .ok next)
    (mode : s.mode = .concrete grammarId)
    (language : s.grammar.concrete? grammarId = some g)
    (function : g.function? chosen = some f)
    (linearization : index ∈ f.linearizations)
    (sequence : g.sequences[index]? = some symbols)
    (reference : Symbol.category slot ∈ symbols)
    (missing : (s.argumentsOf chosen).length ≤ slot) :
    Finds s (.select id chosen) (.outOfRangeSlot slot (s.argumentsOf chosen).length)

theorem mem_findings {s : Session} {o : Operation} {d : Diagnostic} :
    d ∈ s.findings o ↔ s.Finds o d := by
  constructor
  · intro hd
    cases o with
    | select id chosen =>
      simp only [findings] at hd
      split at hd
      next g f hfunction =>
        obtain ⟨grammarId, hmode, hg, hf⟩ := functionInMode?_eq_some_iff.1 hfunction
        split at hd
        · next hin =>
          obtain ⟨slot, hslot, rfl⟩ := List.mem_map.1 hd
          obtain ⟨hle, index, hindex, symbols, hs, hmem⟩ := ConcreteGrammar.mem_missingSlots.1 hslot
          have haccepted : ∃ next, s.select id chosen = .ok next :=
            ⟨_, by rw [select, if_pos hin, labelFor_of_function? hmode hg hf]⟩
          obtain ⟨next, hnext⟩ := haccepted
          exact .slot hnext hmode hg hf hindex hs hmem hle
        · cases hd
      next => cases hd
    | reset id | resetAll | setMode mode | setLanguage language | setSeparator separator => cases hd
  · rintro ⟨haccepted, hmode, hg, hf, hindex, hs, hmem, hle⟩
    obtain ⟨hin, -⟩ := select_eq_ok haccepted
    simp only [findings, functionInMode?_eq_some_iff.2 ⟨_, hmode, hg, hf⟩, if_pos hin]
    exact List.mem_map.2 ⟨_, ConcreteGrammar.mem_missingSlots.2 ⟨hle, _, hindex, _, hs, hmem⟩, rfl⟩

theorem stage_of_mem_findings {s : Session} {o : Operation} {d : Diagnostic}
    (h : d ∈ s.findings o) : d.stage = .edit := by
  cases mem_findings.1 h
  rfl

/-- A label is made with what its function finds, in a language; nothing is
found where no function of the language makes it. -/
theorem found_of_labelFor {s : Session} {chosen label : String} {found : List Diagnostic}
    (h : s.labelFor chosen = .ok (label, found)) :
    (s.functionInMode? chosen = none ∧ found = []) ∨
      ∃ g f, s.functionInMode? chosen = some (g, f) ∧
        found = (Linearization.wording f g.sequences (s.argumentsOf chosen)).diagnostics := by
  cases hfunction : s.functionInMode? chosen with
  | some gf =>
    obtain ⟨g, f⟩ := gf
    obtain ⟨grammarId, hmode, hg, hf⟩ := functionInMode?_eq_some_iff.1 hfunction
    rw [labelFor_of_function? hmode hg hf] at h
    cases h
    exact .inr ⟨g, f, rfl, rfl⟩
  | none =>
    unfold labelFor at h
    split at h
    · cases h
      exact .inl ⟨rfl, rfl⟩
    next grammarId hmode =>
      split at h
      · cases h
      next g hg =>
        cases hf : g.function? chosen with
        | none => simp [Linearization.wordingOf?, hf] at h
        | some f =>
          rw [functionInMode?_eq_some_iff.2 ⟨grammarId, hmode, hg, hf⟩] at hfunction
          cases hfunction

/-- Whatever an operation finds comes with a selection that is not
refused. -/
theorem findings_of_selected?_eq_none {s : Session} {o : Operation} (h : s.selected? o = none) :
    s.findings o = [] := by
  refine List.eq_nil_iff_forall_not_mem.2 fun d hd => ?_
  cases mem_findings.1 hd with
  | slot accepted => simp [selected?, accepted] at h

/-- An operation notes what it finds. -/
theorem diagnostics_apply (s : Session) (o : Operation) :
    (s.apply o).1.diagnostics = Diagnostic.noteAll s.diagnostics (s.findings o) := by
  rcases apply_cases s o with ⟨hsel, h⟩ | ⟨id, chosen, label, found, rfl, -, hin, hlabel, h⟩ |
    ⟨hsel, ids, h⟩ | ⟨hsel, mode, -, h⟩ | ⟨hsel, separator, h⟩
  · rw [h, findings_of_selected?_eq_none hsel]
    rfl
  · rw [h]
    rcases found_of_labelFor hlabel with ⟨hfunction, rfl⟩ | ⟨g, f, hfunction, rfl⟩
    · simp only [findings, hfunction]
    · simp only [findings, hfunction, if_pos hin, g.diagnostics_wording,
        Diagnostic.noteAll_eraseDups]
  · rw [h, findings_of_selected?_eq_none hsel]
    rfl
  · rw [h, findings_of_selected?_eq_none hsel]
    rfl
  · rw [h, findings_of_selected?_eq_none hsel]
    rfl

/-! ## Runs -/

/-- A run notes what its operations find. -/
theorem diagnostics_run (s : Session) (os : List Operation) :
    (s.run os).diagnostics = Diagnostic.noteAll s.diagnostics (s.discoveries os) := by
  induction os generalizing s with
  | nil => rfl
  | cons o os ih =>
    rw [discoveries, Diagnostic.noteAll_append, ← diagnostics_apply]
    exact ih (s.apply o).1

theorem mem_discoveries {s : Session} {os : List Operation} {d : Diagnostic} :
    d ∈ s.discoveries os ↔ ∃ before o after, os = before ++ o :: after ∧ (s.run before).Finds o d := by
  induction os generalizing s with
  | nil => simp [discoveries]
  | cons first os ih =>
    rw [discoveries, List.mem_append, mem_findings, ih]
    constructor
    · rintro (hfirst | ⟨before, o, after, rfl, hfinds⟩)
      · exact ⟨[], first, os, rfl, hfirst⟩
      · exact ⟨first :: before, o, after, rfl, hfinds⟩
    · rintro ⟨before, o, after, hos, hfinds⟩
      cases before with
      | nil =>
        obtain ⟨rfl, rfl⟩ := List.cons.inj hos
        exact .inl hfinds
      | cons b before =>
        obtain ⟨rfl, rfl⟩ := List.cons.inj hos
        exact .inr ⟨before, o, after, rfl, hfinds⟩

theorem stage_of_mem_discoveries {s : Session} {os : List Operation} {d : Diagnostic}
    (h : d ∈ s.discoveries os) : d.stage = .edit := by
  obtain ⟨before, o, after, -, hfinds⟩ := mem_discoveries.1 h
  exact stage_of_mem_findings (mem_findings.2 hfinds)

/-- **Diagnostics over a run.** From a session on any category of a loaded
grammar, after any operations, refused or not: no diagnostic is listed twice;
operations that follow only add to the list, at its end; and the list is what
was noted while loading, then what was noted while building, then what the
operations found, each entry where it was found first. Found are the
references past the last argument in the sequences that a selection in a
language puts into words, and nothing else. -/
theorem diagnostics_of_run {files : Files} {source : Source} {g : Grammar}
    (h : source.grammar files = .ok g) (category : String) (operations : List Operation) :
    let start := ofCategory g category
    let s := start.run operations
    s.diagnostics.Nodup ∧
      (∀ more, s.diagnostics <+: (s.run more).diagnostics) ∧
      s.diagnostics = g.diagnostics ++ (DerivationTree.build g.abstractGrammar category).diagnostics
        ++ (start.discoveries operations).eraseDups ∧
      ∀ d, d ∈ start.discoveries operations ↔
        ∃ before o after, operations = before ++ o :: after ∧ (start.run before).Finds o d := by
  intro start s
  obtain ⟨document, hdocument⟩ := Source.exists_document h
  obtain ⟨hload, hstageLoad⟩ := nodup_diagnostics_load hdocument
  obtain ⟨hbuild, hstageBuild⟩ := nodup_diagnostics_build g.abstractGrammar category
  have hstart : start.diagnostics.Nodup := by
    refine List.nodup_append.2 ⟨hload, hbuild, fun d hd e he hde => ?_⟩
    have hstage : Stage.load = Stage.build := by rw [← hstageLoad d hd, hde, hstageBuild e he]
    cases hstage
  have hrun : s.diagnostics = Diagnostic.noteAll start.diagnostics (start.discoveries operations) :=
    diagnostics_run start operations
  refine ⟨?_, fun more => ?_, ?_, fun d => mem_discoveries⟩
  · rw [hrun]
    exact Diagnostic.nodup_noteAll hstart _
  · rw [diagnostics_run s more]
    exact Diagnostic.prefix_noteAll _ _
  · rw [hrun, Diagnostic.noteAll_of_disjoint]
    · rfl
    · intro d hd hknown
      have hstage := stage_of_mem_discoveries hd
      rcases List.mem_append.1 hknown with hd | hd
      · rw [hstageLoad d hd] at hstage
        cases hstage
      · rw [hstageBuild d hd] at hstage
        cases hstage

/-- A document of the grammar with the two functions of one name. -/
def twinDocument : Json :=
  let index (n : Nat) : Json := .number (.integer n)
  let symbol (tag : String) (arguments : List Json) : Json :=
    .object [("type", .string tag), ("args", .array arguments)]
  let function (name : String) (linearizations : List Json) : Json :=
    .object [("name", .string name), ("lins", .array linearizations)]
  .object [
    ("abstract", .object [
      ("startcat", .string "S"),
      ("funs", .object [
        ("f", .object [("cat", .string "S"), ("args", .array [.string "N", .string "B"])]),
        ("a", .object [("cat", .string "N"), ("args", .array [])])])]),
    ("concretes", .object [
      ("T", .object [
        ("flags", .object [("language", .string "en")]),
        ("productions", .object [
          ("S", .array [.object [("fid", index 9)], .object [("fid", index 1)],
            .object [("type", .string "Coerce")], .object [("fid", index 0)]]),
          ("N", .array [.object [("fid", index 2)]])]),
        ("functions", .array [function "f" [index 0, index 7], function "f" [index 1],
          function "a" [index 2]]),
        ("sequences", .array [
          .array [symbol "SymCat" [index 0], symbol "SymCat" [index 5]],
          .array [symbol "SymKS" [.string "twin"]],
          .array [symbol "SymKS" [.string "one"], symbol "SymBIND" []]])])])]

/-- Selections that find the same reference twice, and one that is refused. -/
theorem diagnostics_of_twin_run :
    let s := (ofCategory twinGrammar "S").run
      [.select 0 "f", .setLanguage (some "en"), .select 0 "f", .select 9 "f", .select 1 "f"]
    (Source.value twinDocument).grammar ⟨[]⟩ = .ok twinGrammar ∧
      s.diagnostics.Nodup ∧
      (∀ more, s.diagnostics <+: (s.run more).diagnostics) ∧
      s.diagnostics = [.unknownSymbol "SymBIND", .productionWithoutFunction "S" "Coerce",
        .unknownCategory "B", .outOfRangeSlot 5 2] := by
  intro s
  have hload : (Source.value twinDocument).grammar ⟨[]⟩ = .ok twinGrammar := rfl
  obtain ⟨hnodup, hmore, hparts, -⟩ := diagnostics_of_run hload "S"
    [.select 0 "f", .setLanguage (some "en"), .select 0 "f", .select 9 "f", .select 1 "f"]
  refine ⟨hload, hnodup, hmore, hparts.trans ?_⟩
  decide +kernel

end Session

end GrammarExplorer
