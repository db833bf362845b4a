/-
What is offered for a node can be chosen.

An offer is read off the productions, which point at functions by their
places; a choice looks the function up by its name. A name in the table is
found whatever else the table has, so the one never leads the other astray.
-/
import GrammarExplorer.Session.Basic

namespace GrammarExplorer

/-- The functions that realize a category are all found by their names. -/
theorem ConcreteGrammar.exists_function {g : ConcreteGrammar} {category name : String}
    (h : name ∈ g.functionsFor category) : ∃ f, g.function? name = some f := by
  obtain ⟨fid, -, hname⟩ := List.mem_filterMap.1 h
  obtain ⟨f, hf, rfl⟩ := Option.map_eq_some_iff.1 hname
  have hmem : f ∈ g.functions := List.mem_of_getElem? hf
  refine Option.isSome_iff_exists.1 (List.find?_isSome.2 ⟨f, hmem, ?_⟩)
  exact beq_self_eq_true f.name

namespace Session

variable {s : Session} {id : Nat} {chosen : String}

theorem contains_of_mem_alternatives (h : chosen ∈ s.alternatives id) :
    s.tree.contains id = true := by
  rw [alternatives, categoryAt?] at h
  cases hn : s.tree.node? id with
  | none =>
    rw [hn] at h
    simp at h
  | some n =>
    obtain ⟨hlt, -⟩ := Array.getElem?_eq_some_iff.1 hn
    exact decide_eq_true hlt

/-- There is a label for every function that realizes a category. -/
theorem exists_labelFor {category : String} (h : chosen ∈ s.functionsFor category) :
    ∃ label found, s.labelFor chosen = .ok (label, found) := by
  unfold functionsFor at h
  unfold labelFor
  cases hmode : s.mode with
  | abstractNames => exact ⟨chosen, [], rfl⟩
  | concrete grammarId =>
    simp only [hmode] at h ⊢
    split at h
    · next g hg =>
      obtain ⟨f, hf⟩ := ConcreteGrammar.exists_function h
      simp only [hg, Linearization.wordingOf?, hf, Option.map_some]
      exact ⟨_, _, rfl⟩
    · simp at h

/-- Whatever is offered for a node can be chosen for it. -/
theorem exists_select (h : chosen ∈ s.alternatives id) : ∃ next, s.select id chosen = .ok next := by
  have hin := contains_of_mem_alternatives h
  unfold alternatives at h
  split at h
  · next category _ =>
    obtain ⟨label, found, hlabel⟩ := exists_labelFor h
    simp only [select, if_pos hin, hlabel]
    exact ⟨_, rfl⟩
  · simp at h

/-- So can every language that a concrete grammar has for its id. -/
theorem exists_setLanguage {language : Option String}
    (h : ∀ wanted, language = some wanted → wanted ∈ s.grammar.concreteIds) :
    ∃ next, s.setLanguage language = .ok next := by
  cases language with
  | none => exact ⟨_, rfl⟩
  | some wanted =>
    obtain ⟨c, hc, hid⟩ := List.mem_map.1 (h wanted rfl)
    have hsome : (s.grammar.concrete? wanted).isSome = true :=
      List.find?_isSome.2 ⟨c, hc, by simp [hid]⟩
    obtain ⟨g, hg⟩ := Option.isSome_iff_exists.1 hsome
    have hgid : g.id = wanted := by simpa using List.find?_some hg
    have hmode : s.modeFor (some wanted) = .ok (.concrete wanted) := by
      rw [modeFor, Grammar.named?, hg]
      simp [hgid]
    have hset : s.setMode (.concrete wanted) = .ok { s with mode := .concrete wanted } := by
      rw [setMode, admits, hg]
      rfl
    exact ⟨_, by rw [setLanguage, hmode]; exact hset⟩

end Session

end GrammarExplorer
