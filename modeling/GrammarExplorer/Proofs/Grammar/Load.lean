/-
What a grammar that was loaded has from its document.
-/
import GrammarExplorer.Grammar.Source
import GrammarExplorer.Proofs.Json.Keyed

namespace GrammarExplorer

/-- The diagnostics of a grammar from a document are those of the notices
made of its parts, each noted once. -/
theorem Document.diagnostics_grammar {document : Json} {g : Grammar}
    (h : Document.grammar document = .ok g) :
    ∃ notices : List Notice, g.diagnostics = Diagnostic.noteAll [] (notices.map Notice.diagnostic) := by
  unfold Document.grammar at h
  obtain ⟨abstractGrammar, -, h⟩ := exists_of_bind_eq_ok h
  obtain ⟨members, -, h⟩ := exists_of_bind_eq_ok h
  obtain ⟨parts, -, h⟩ := exists_of_bind_eq_ok h
  cases h
  exact ⟨parts.flatMap (·.2), by rw [List.map_flatMap]⟩

/-! ## Ids -/

theorem Document.id_of_concretePart {id : String} {v : Json} {part : ConcreteGrammar × List Notice}
    (h : concretePart id v = .ok part) : part.1.id = id := by
  unfold concretePart at h
  obtain ⟨entry, -, h⟩ := exists_of_bind_eq_ok h
  obtain ⟨concrete, hconcrete, h⟩ := exists_of_bind_eq_ok h
  obtain ⟨sequences, -, hconcrete⟩ := exists_of_bind_eq_ok hconcrete
  cases h
  cases hconcrete
  rfl

theorem Document.nodup_concreteMembers {document : Json} (h : document.keyed = true)
    {members : List (String × Json)} (hmembers : concreteMembers document = .ok members) :
    (members.map (·.1)).Nodup := by
  unfold concreteMembers at hmembers
  split at hmembers
  · cases hmembers
    exact List.nodup_nil
  · cases hmembers
    exact List.nodup_nil
  · next found hfound =>
    cases hmembers
    cases document with
    | object fields =>
      have hkeyed : (Json.object members).keyed = true := Json.keyed_of_member? h hfound
      exact (Json.keyed_object.1 hkeyed).1
    | null | bool _ | number _ | string _ | array _ => cases hfound
  · cases hmembers

/-- The concrete grammars have the keys of the document for their ids, in the
order of the document. -/
theorem Document.exists_concreteMembers {document : Json} {g : Grammar}
    (hg : Document.grammar document = .ok g) :
    ∃ members, concreteMembers document = .ok members ∧ g.concreteIds = members.map (·.1) := by
  unfold Document.grammar at hg
  obtain ⟨abstractGrammar, -, hg⟩ := exists_of_bind_eq_ok hg
  obtain ⟨members, hmembers, hg⟩ := exists_of_bind_eq_ok hg
  obtain ⟨parts, hparts, hg⟩ := exists_of_bind_eq_ok hg
  cases hg
  have hids : List.Forall₂ (fun m p => m.1 = p.1.id) members parts :=
    (mapM_eq_ok_iff.1 hparts).imp fun m p hp => (id_of_concretePart hp).symm
  exact ⟨members, hmembers, List.map_map.trans (Json.map_names hids).symm⟩

/-- So no two have the same one. -/
theorem Document.nodup_concreteIds {document : Json} (h : document.keyed = true) {g : Grammar}
    (hg : Document.grammar document = .ok g) : g.concreteIds.Nodup := by
  obtain ⟨members, hmembers, hids⟩ := exists_concreteMembers hg
  rw [hids]
  exact nodup_concreteMembers h hmembers

/-! ## Where documents come from -/

theorem Grammar.document_of_ofJson {document : Json} {g : Grammar}
    (h : Grammar.ofJson document = .ok g) : Document.grammar document = .ok g := by
  unfold Grammar.ofJson at h
  cases hd : Document.grammar document with
  | error e => rw [hd] at h; cases h
  | ok loaded => rw [hd] at h; cases h; rfl

/-- A text is read as a document without double keys. -/
theorem Grammar.exists_document_of_ofText {text : String} {g : Grammar}
    (h : Grammar.ofText text = .ok g) :
    ∃ document, document.keyed = true ∧ Document.grammar document = .ok g := by
  unfold Grammar.ofText at h
  split at h
  · cases h
  · next document hread => exact ⟨document, Json.keyed_read hread, document_of_ofJson h⟩

theorem Grammar.exists_document_of_ofFile {files : Files} {path : String} {g : Grammar}
    (h : Grammar.ofFile files path = .ok g) :
    ∃ document, document.keyed = true ∧ Document.grammar document = .ok g := by
  unfold Grammar.ofFile at h
  split at h
  · cases h
  · exact exists_document_of_ofText h

/-- Every grammar that is loaded is the grammar of a document. -/
theorem Source.exists_document {files : Files} {source : Source} {g : Grammar}
    (h : source.grammar files = .ok g) : ∃ document, Document.grammar document = .ok g := by
  cases source with
  | text t =>
    obtain ⟨document, -, hdocument⟩ := Grammar.exists_document_of_ofText h
    exact ⟨document, hdocument⟩
  | file path =>
    obtain ⟨document, -, hdocument⟩ := Grammar.exists_document_of_ofFile h
    exact ⟨document, hdocument⟩
  | value document => exact ⟨document, Grammar.document_of_ofJson h⟩

end GrammarExplorer
