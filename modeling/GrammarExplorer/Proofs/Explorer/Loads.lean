/-
An explorer over a whole run of loads and operations.

A load that fails leaves the explorer as it was, and one that succeeds makes
a new session whatever was there (`load_error`, `load_ok`). So of
a run only what comes from the last load that succeeds on is left, and of that
only the operations (`session_run_of_noneLoads`).
-/
import GrammarExplorer.Explorer
import GrammarExplorer.Proofs.Session.Diagnostics

namespace GrammarExplorer.Explorer

/-- What an explorer is asked to do: to load a document, with the files that
there are at the time, or to do an operation on its session. -/
inductive Request
  | load (files : Files) (source : Source)
  | operate (operation : Session.Operation)

/-- The explorer after a request. -/
def handle (e : Explorer) : Request → Explorer
  | .load files source => (e.load files source).1
  | .operate operation => (e.apply operation).1

/-- The explorer after requests, one after the other. -/
def run (e : Explorer) (requests : List Request) : Explorer := requests.foldl handle e

/-- The operation of a request. -/
def Request.operation? : Request → Option Session.Operation
  | .load _ _ => none
  | .operate operation => some operation

/-- The operations among requests, in their order. -/
def operations (requests : List Request) : List Session.Operation :=
  requests.filterMap Request.operation?

/-- Whether every load among the requests fails. -/
def NoneLoads (requests : List Request) : Prop :=
  ∀ files source, .load files source ∈ requests → ∃ cause, source.grammar files = .error cause

variable {e : Explorer} {files : Files} {source : Source} {requests : List Request}

/-! ## Single requests -/

theorem load_error {cause : GrammarError} (h : source.grammar files = .error cause) :
    e.load files source = (e, .error cause) := by
  rw [load, h]

theorem load_ok {g : Grammar} (h : source.grammar files = .ok g) :
    e.load files source = (⟨some (.ofGrammar g)⟩, .ok (.ofGrammar g)) := by
  rw [load, h]

/-- An operation is done on the session, if there is one. -/
theorem handle_operate (o : Session.Operation) :
    (e.handle (.operate o)).session = e.session.map fun s => (s.apply o).1 := by
  obtain ⟨session⟩ := e
  cases session <;> rfl

/-! ## Runs -/

theorem run_append (before after : List Request) :
    e.run (before ++ after) = (e.run before).run after := List.foldl_append

theorem NoneLoads.nil : NoneLoads [] := fun _ _ hmem => absurd hmem List.not_mem_nil

theorem NoneLoads.operate {o : Session.Operation} (h : NoneLoads requests) :
    NoneLoads (.operate o :: requests) := fun files source hmem => by
  rcases List.mem_cons.1 hmem with heq | hmem
  · cases heq
  · exact h files source hmem

theorem NoneLoads.load {cause : GrammarError} (h : NoneLoads requests)
    (hcause : source.grammar files = .error cause) :
    NoneLoads (.load files source :: requests) := by
  intro files' source' hmem
  rcases List.mem_cons.1 hmem with heq | hmem
  · cases heq
    exact ⟨cause, hcause⟩
  · exact h files' source' hmem

theorem NoneLoads.tail {r : Request} (h : NoneLoads (r :: requests)) : NoneLoads requests :=
  fun files source hmem => h files source (List.mem_cons_of_mem _ hmem)

/-- Without a load that succeeds, only the operations count. -/
theorem session_run_of_noneLoads (h : NoneLoads requests) :
    (e.run requests).session = e.session.map fun s => s.run (operations requests) := by
  induction requests generalizing e with
  | nil => exact Option.map_id'.symm
  | cons r rest ih =>
    have hrest : (e.run (r :: rest)).session
        = (e.handle r).session.map fun s => s.run (operations rest) := ih h.tail
    rw [hrest]
    cases r with
    | load files source =>
      obtain ⟨cause, hcause⟩ := h files source List.mem_cons_self
      rw [handle, load_error hcause]
      rfl
    | operate o =>
      rw [handle_operate, Option.map_map]
      rfl

/-- From a load that succeeds on, nothing of what was before is left. -/
theorem session_run_of_load {g : Grammar} (h : source.grammar files = .ok g)
    (hafter : NoneLoads requests) : (e.run (.load files source :: requests)).session
      = some ((Session.ofGrammar g).run (operations requests)) := by
  have hstart : e.run (.load files source :: requests)
      = (⟨some (.ofGrammar g)⟩ : Explorer).run requests := by
    rw [run, List.foldl_cons, handle, load_ok h]
    rfl
  rw [hstart, session_run_of_noneLoads hafter, Option.map_some]

/-- If not every load fails, there is a last one that succeeds. -/
theorem noneLoads_or_exists_last (requests : List Request) :
    NoneLoads requests ∨ ∃ before files source after g,
      requests = before ++ .load files source :: after ∧ source.grammar files = .ok g ∧
        NoneLoads after := by
  induction requests with
  | nil => exact .inl NoneLoads.nil
  | cons r rest ih =>
    rcases ih with hrest | ⟨before, files, source, after, g, rfl, hg, hafter⟩
    · cases r with
      | operate o => exact .inl hrest.operate
      | load files source =>
        cases hg : source.grammar files with
        | error cause => exact .inl (hrest.load hg)
        | ok g => exact .inr ⟨[], files, source, rest, g, rfl, hg, hrest⟩
    · exact .inr ⟨r :: before, files, source, after, g, rfl, hg, hafter⟩

/-- **Loads are all or nothing.** After any requests, beginning without a
session: there is no session just if every load failed. Else the session is the
one that the last load that succeeded has started, after the operations that
came behind it. A load that fails changes nothing of the explorer, and after
one that succeeds the explorer is the same as if it had been the first
request. -/
theorem loads_of_run (requests : List Request) :
    let e := empty.run requests
    (e.session = none ↔ NoneLoads requests) ∧
      (∀ before files source after g, requests = before ++ .load files source :: after →
        source.grammar files = .ok g → NoneLoads after →
          e.session = some ((Session.ofGrammar g).run (operations after))) ∧
      (∀ files source cause, source.grammar files = .error cause →
        e.load files source = (e, .error cause)) ∧
      (∀ files source g, source.grammar files = .ok g →
        e.load files source = empty.load files source) := by
  intro e
  have hlast : ∀ before files source after g, requests = before ++ .load files source :: after →
      source.grammar files = .ok g → NoneLoads after →
        e.session = some ((Session.ofGrammar g).run (operations after)) := by
    rintro before files source after g hrequests hg hafter
    have hsplit : e = (empty.run before).run (.load files source :: after) := by
      rw [← run_append, ← hrequests]
    rw [hsplit, session_run_of_load hg hafter]
  refine ⟨⟨fun hnone => ?_, fun hfail => ?_⟩, hlast, fun _ _ _ => load_error, fun _ _ _ hg => ?_⟩
  · rcases noneLoads_or_exists_last requests with
      hfail | ⟨before, files, source, after, g, hrequests, hg, hafter⟩
    · exact hfail
    · rw [hlast before files source after g hrequests hg hafter] at hnone
      cases hnone
  · exact session_run_of_noneLoads hfail
  · rw [load_ok hg, load_ok hg]

/-- A file that is not there and a document that is no object, both of them
behind a document that can be loaded, with edits in between. -/
theorem loads_of_twin_run :
    let after : List Request := [.operate (.select 4 "f"), .load ⟨[]⟩ (.file "gone.json"),
      .operate (.setLanguage (some "en")), .load ⟨[]⟩ (.value .null), .operate (.reset 4)]
    (Source.value Session.twinDocument).grammar ⟨[]⟩ = .ok twinGrammar ∧ NoneLoads after ∧
      (empty.run (.operate .resetAll :: .load ⟨[]⟩ (.value Session.twinDocument) :: after)).session
        = some ((Session.ofGrammar twinGrammar).run
            [.select 4 "f", .setLanguage (some "en"), .reset 4]) := by
  intro after
  have hload : (Source.value Session.twinDocument).grammar ⟨[]⟩ = .ok twinGrammar := rfl
  have hgone : ∃ cause, (Source.file "gone.json").grammar ⟨[]⟩ = .error cause := by
    have hnone : (⟨[]⟩ : Files).bytes? "gone.json" = none := by simp [Files.bytes?]
    simp only [Source.grammar, Grammar.ofFile, Files.readText, hnone]
    split
    · exact ⟨_, rfl⟩
    · next hfile =>
      split at hfile
      · cases hfile
      · split at hfile <;> cases hfile
  obtain ⟨gone, hgone⟩ := hgone
  have hafter : NoneLoads after :=
    .operate (.load (.operate (.load (.operate .nil) rfl)) hgone)
  obtain ⟨-, hlast, -, -⟩ :=
    loads_of_run (.operate .resetAll :: .load ⟨[]⟩ (.value Session.twinDocument) :: after)
  exact ⟨hload, hafter, hlast [.operate .resetAll] _ _ after _ rfl hload hafter⟩

end GrammarExplorer.Explorer
