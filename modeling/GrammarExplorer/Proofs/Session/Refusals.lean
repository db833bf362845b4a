/-
When an operation is refused, and that nothing has changed by then.

A selection is refused for a node outside the tree, or, in a language, for a
function that the language does not have (`select_eq_error_iff`). A mode or a
language is refused if no concrete grammar has the name that is wanted. In
place, a selection notes what it has found before it comes to the node, and it
looks for the node a second time then; but by that time it can no longer fail
(`run_select`).
-/
import GrammarExplorer.Proofs.Session.Integrity
import GrammarExplorer.Proofs.Session.Language
import GrammarExplorer.Session.InPlace

namespace GrammarExplorer

theorem ConcreteGrammar.function?_eq_none_iff {g : ConcreteGrammar} {name : String} :
    g.function? name = none ↔ ∀ f ∈ g.functions, f.name ≠ name := by
  simp [function?]

namespace Grammar

variable {g : Grammar} {wanted : String}

theorem concrete?_eq_none_iff : g.concrete? wanted = none ↔ ∀ c ∈ g.concretes, c.id ≠ wanted := by
  simp [concrete?]

theorem named?_eq_none_iff :
    g.named? wanted = none ↔ ∀ c ∈ g.concretes, c.id ≠ wanted ∧ c.languageTag ≠ wanted := by
  rw [← Option.not_isSome_iff_eq_none, isSome_named?_iff]
  push Not
  rfl

end Grammar

namespace DerivationTree

/-- What a change of a node does to other nodes than the one that is there does
not matter. -/
theorem modify_congr {t : DerivationTree} {id : Nat} {n : Node} (hn : t.node? id = some n)
    {f g : Node → Node} (h : f n = g n) : t.modify id f = t.modify id g := by
  refine ext_node? fun i => ?_
  rw [node?_modify, node?_modify]
  split
  · next hi => rw [← hi, hn, Option.map_some, Option.map_some, h]
  · rfl

theorem modify_modify (t : DerivationTree) (id : Nat) (f g : Node → Node) :
    (t.modify id f).modify id g = t.modify id fun n => g (f n) := by
  refine ext_node? fun i => ?_
  simp only [node?_modify]
  split
  · rw [Option.map_map]
    rfl
  · rfl

end DerivationTree

namespace Session

open DerivationTree

variable {s : Session} {cause : SelectError}

/-! ## Reasons to refuse -/

/-- With a grammar for the mode, there is no label just for a function that
the language of the mode does not have. -/
theorem labelFor_eq_error_iff (h : s.admits s.mode = true) {chosen : String} :
    s.labelFor chosen = .error cause ↔
      ∃ grammarId c, s.mode = .concrete grammarId ∧ s.grammar.concrete? grammarId = some c ∧
        (∀ f ∈ c.functions, f.name ≠ chosen) ∧ cause = .noSuchFunction chosen c.languageTag := by
  cases hmode : s.mode with
  | abstractNames => simp [labelFor, hmode]
  | concrete grammarId =>
    rw [hmode, admits] at h
    obtain ⟨c, hc⟩ := Option.isSome_iff_exists.1 h
    simp only [labelFor, hmode, hc, Linearization.wordingOf?, DisplayMode.concrete.injEq,
      exists_and_left, exists_eq_left', Option.some.injEq, ← ConcreteGrammar.function?_eq_none_iff]
    cases c.function? chosen <;> simp [eq_comm]

theorem select_eq_error_iff (h : s.admits s.mode = true) {id : Nat} {chosen : String} :
    s.select id chosen = .error cause ↔
      (s.tree.size ≤ id ∧ cause = .unknownNode id) ∨
      (id < s.tree.size ∧ ∃ grammarId c, s.mode = .concrete grammarId ∧
        s.grammar.concrete? grammarId = some c ∧ (∀ f ∈ c.functions, f.name ≠ chosen) ∧
        cause = .noSuchFunction chosen c.languageTag) := by
  rw [← labelFor_eq_error_iff h, select, DerivationTree.contains]
  by_cases hin : id < s.tree.size
  · simp only [hin, decide_true, if_true, Nat.not_le.2 hin, false_and, false_or, true_and]
    cases s.labelFor chosen <;> simp
  · simp [hin, Nat.not_lt.1 hin, eq_comm]

theorem setMode_eq_error_iff {mode : DisplayMode} : s.setMode mode = .error cause ↔
    ∃ id, mode = .concrete id ∧ (∀ c ∈ s.grammar.concretes, c.id ≠ id) ∧
      cause = .noConcreteGrammar id := by
  cases mode with
  | abstractNames => simp [setMode]
  | concrete id =>
    simp only [DisplayMode.concrete.injEq, exists_eq_left', ← Grammar.concrete?_eq_none_iff]
    cases hid : s.grammar.concrete? id <;> simp [setMode, admits, hid, eq_comm]

theorem setLanguage_eq_error_iff {language : Option String} :
    s.setLanguage language = .error cause ↔
      ∃ wanted, language = some wanted ∧
        (∀ c ∈ s.grammar.concretes, c.id ≠ wanted ∧ c.languageTag ≠ wanted) ∧
        cause = .noConcreteGrammar wanted := by
  cases language with
  | none => simp [setLanguage_none]
  | some wanted =>
    simp only [Option.some.injEq, exists_eq_left', ← Grammar.named?_eq_none_iff]
    cases hnamed : s.grammar.named? wanted with
    | none => simp [setLanguage_of_unnamed hnamed, eq_comm]
    | some c => simp [setLanguage_of_named hnamed]

/-- A concrete grammar is looked for by its id first, and by its tag only if
no other has the name for its id. -/
theorem mode_of_setLanguage {next : Session} {wanted : String}
    (h : s.setLanguage (some wanted) = .ok next) :
    ((∃ c ∈ s.grammar.concretes, c.id = wanted) → next = { s with mode := .concrete wanted }) ∧
      ((∀ c ∈ s.grammar.concretes, c.id ≠ wanted) →
        ∃ c, s.grammar.concreteFor? wanted = some c ∧
          next = { s with mode := .concrete c.id }) := by
  cases hnamed : s.grammar.named? wanted with
  | none =>
    rw [setLanguage_of_unnamed hnamed] at h
    cases h
  | some found =>
    rw [setLanguage_of_named hnamed] at h
    cases h
    cases hid : s.grammar.concrete? wanted with
    | none =>
      rw [Grammar.named?, hid] at hnamed
      refine ⟨?_, fun _ => ⟨found, hnamed, rfl⟩⟩
      rintro ⟨c, hc, heq⟩
      exact absurd heq (Grammar.concrete?_eq_none_iff.1 hid c hc)
    | some c =>
      have hc : c.id = wanted := by simpa using List.find?_some hid
      rw [Grammar.named?, hid] at hnamed
      cases hnamed
      exact ⟨fun _ => by rw [hc], fun hno => absurd hc (hno _ (List.mem_of_find?_eq_some hid))⟩

/-! ## Refusals in place -/

theorem run_forM_note (found : List Diagnostic) (s : Session) : (forM found InPlace.note).run s
    = .ok () { s with diagnostics := Diagnostic.noteAll s.diagnostics found } := by
  induction found generalizing s with
  | nil => rfl
  | cons d found ih => exact ih { s with diagnostics := Diagnostic.note s.diagnostics d }

theorem run_change (id : Nat) (f : Node → Node) (s : Session) :
    (InPlace.change id f).run s = .ok () { s with tree := s.tree.modify id f } := rfl

/-- In place, the label is kept before it is replaced. -/
theorem run_relabel {id : Nat} {n : Node} (h : s.tree.node? id = some n) (label : String) :
    (InPlace.relabel id label).run s
      = .ok () { s with tree := s.tree.modify id (·.relabel label) } := by
  cases hfirst : n.firstLabel with
  | none =>
    have hsame : s.tree.modify id (fun n => { n with label, firstLabel := some n.label })
        = s.tree.modify id (·.relabel label) := modify_congr h (by simp [Node.relabel, hfirst])
    simp [InPlace.relabel, h, hfirst, run_change, modify_modify, ← hsame]
  | some first =>
    have hsame : s.tree.modify id (fun n => { n with label })
        = s.tree.modify id (·.relabel label) := modify_congr h (by simp [Node.relabel, hfirst])
    simp [InPlace.relabel, h, hfirst, run_change, ← hsame]

/-- A node that was there at first is still there once all is noted. -/
theorem run_select (s : Session) (id : Nat) (chosen : String) :
    (InPlace.select id chosen).run s = s.inPlace (s.select id chosen) := by
  cases hin : s.tree.contains id with
  | false => simp [InPlace.select, select, hin, inPlace]
  | true =>
    obtain ⟨n, hn⟩ := Option.isSome_iff_exists.1 ((isSome_node? s.tree id).trans hin)
    cases hlabel : s.labelFor chosen with
    | error cause => simp [InPlace.select, select, hin, hlabel, inPlace]
    | ok made =>
      obtain ⟨label, found⟩ := made
      have hnoted : ({ s with diagnostics := Diagnostic.noteAll s.diagnostics found } :
          Session).tree.node? id = some n := hn
      simp [InPlace.select, select, hin, hlabel, inPlace, run_forM_note, run_relabel hnoted]

theorem run_setMode (s : Session) (mode : DisplayMode) :
    (InPlace.setMode mode).run s = s.inPlace (s.setMode mode) := by
  cases mode with
  | abstractNames => rfl
  | concrete id =>
    cases hid : s.grammar.concrete? id <;>
      simp [InPlace.setMode, setMode, admits, hid, inPlace]

theorem run_setLanguage (s : Session) (language : Option String) :
    (InPlace.setLanguage language).run s = s.inPlace (s.setLanguage language) := by
  cases language with
  | none => rfl
  | some wanted =>
    cases hnamed : s.grammar.named? wanted with
    | none => simp [InPlace.setLanguage, hnamed, setLanguage_of_unnamed hnamed, inPlace]
    | some c =>
      simp [InPlace.setLanguage, hnamed, setLanguage, modeFor, Except.bind, run_setMode]

/-! ## Refusals in every state -/

theorem apply_of_refused {o : Operation} (h : (s.apply o).2 = .refused cause) :
    (s.apply o).1 = s := by
  have hattempt : ∀ {r : Except SelectError Session}, (s.attempt r).2 = .refused cause →
      (s.attempt r).1 = s := by
    intro r hr
    cases r with
    | error _ => rfl
    | ok _ => cases hr
  cases o with
  | select | setMode | setLanguage => exact hattempt h
  | reset | resetAll | setSeparator => cases h

/-- **Refusals.** In every state that operations lead to from the session on a
category: a selection is refused as one of an unknown node just if the node is
outside the tree; if it is inside, just if the mode is a language and the
language has no function of the chosen name, and then for want of this
function. A mode is refused just if no concrete grammar has its id, and a
language just if none has it for its id or its tag; the grammar with the id is
taken before all that have the tag. An operation that is refused leaves the
session as it was, and does so in place as well. -/
theorem refusals_run (g : Grammar) (category : String) (operations : List Operation) :
    let s := (ofCategory g category).run operations
    (∀ id chosen,
      (s.select id chosen = .error (.unknownNode id) ↔ s.tree.size ≤ id) ∧
      (id < s.tree.size → ∀ cause, s.select id chosen = .error cause ↔
        ∃ grammarId c, s.mode = .concrete grammarId ∧ g.concrete? grammarId = some c ∧
          (∀ f ∈ c.functions, f.name ≠ chosen) ∧
          cause = .noSuchFunction chosen c.languageTag)) ∧
    (∀ mode cause, s.setMode mode = .error cause ↔
      ∃ id, mode = .concrete id ∧ (∀ c ∈ g.concretes, c.id ≠ id) ∧
        cause = .noConcreteGrammar id) ∧
    (∀ language cause, s.setLanguage language = .error cause ↔
      ∃ wanted, language = some wanted ∧
        (∀ c ∈ g.concretes, c.id ≠ wanted ∧ c.languageTag ≠ wanted) ∧
        cause = .noConcreteGrammar wanted) ∧
    (∀ wanted next, s.setLanguage (some wanted) = .ok next →
      ((∃ c ∈ g.concretes, c.id = wanted) → next.mode = .concrete wanted) ∧
      ((∀ c ∈ g.concretes, c.id ≠ wanted) →
        ∃ c, g.concreteFor? wanted = some c ∧ next.mode = .concrete c.id)) ∧
    (∀ o cause, (s.apply o).2 = .refused cause → (s.apply o).1 = s) ∧
    (∀ id chosen, (InPlace.select id chosen).run s = s.inPlace (s.select id chosen)) ∧
    (∀ mode, (InPlace.setMode mode).run s = s.inPlace (s.setMode mode)) ∧
    ∀ language, (InPlace.setLanguage language).run s = s.inPlace (s.setLanguage language) := by
  intro s
  have hadmits : s.admits s.mode = true := admits_run_ofCategory g category operations
  have hgrammar : s.grammar = g := grammar_run _ operations
  refine ⟨fun id chosen => ⟨?_, fun hin cause => ?_⟩, fun mode cause => ?_,
    fun language cause => ?_, fun wanted next hnext => ?_, fun o cause => apply_of_refused,
    run_select s, run_setMode s, run_setLanguage s⟩
  · rw [select_eq_error_iff hadmits]
    simp
  · rw [select_eq_error_iff hadmits, hgrammar]
    simp [hin, Nat.not_le.2 hin]
  · rw [setMode_eq_error_iff, hgrammar]
  · rw [setLanguage_eq_error_iff, hgrammar]
  · obtain ⟨hid, htag⟩ := mode_of_setLanguage hnext
    rw [hgrammar] at hid htag
    refine ⟨fun hc => by rw [hid hc], fun hno => ?_⟩
    obtain ⟨c, hc, hmode⟩ := htag hno
    exact ⟨c, hc, by rw [hmode]⟩

end Session

end GrammarExplorer
