/-
The language of a session.

Setting a language is a lookup in the grammar: by the ids first, then by the
tags. The concrete grammar that is found is one of the grammar's own, so there
is always a grammar for the mode; and where no two have one id, it is found
again by its id, and not another one in its place.
-/
import GrammarExplorer.Session.Basic
import Mathlib.Data.List.Nodup

namespace GrammarExplorer

namespace Grammar

variable {g : Grammar} {c : ConcreteGrammar} {wanted : String}

theorem mem_of_named? (h : g.named? wanted = some c) : c ∈ g.concretes := by
  unfold named? at h
  cases hid : g.concrete? wanted with
  | some found =>
    rw [hid] at h
    cases h
    exact List.mem_of_find?_eq_some hid
  | none =>
    rw [hid] at h
    exact List.mem_of_find?_eq_some h

/-- Every concrete grammar has two names that a user may mean one by. -/
theorem isSome_named?_iff : (g.named? wanted).isSome = true ↔
    ∃ c ∈ g.concretes, c.id = wanted ∨ c.languageTag = wanted := by
  have heither : (g.named? wanted).isSome = true ↔
      (g.concrete? wanted).isSome = true ∨ (g.concreteFor? wanted).isSome = true := by
    rw [named?]
    cases g.concrete? wanted <;> simp
  rw [heither, concrete?, concreteFor?, List.find?_isSome, List.find?_isSome, ← exists_or]
  simp only [beq_iff_eq, ← and_or_left]

theorem isSome_concrete? (h : c ∈ g.concretes) : (g.concrete? c.id).isSome = true :=
  List.find?_isSome.2 ⟨c, h, beq_self_eq_true c.id⟩

/-- With different ids, a concrete grammar is found by its own. -/
theorem concrete?_id (hids : g.concreteIds.Nodup) (h : c ∈ g.concretes) :
    g.concrete? c.id = some c := by
  obtain ⟨found, hfound⟩ := Option.isSome_iff_exists.1 (isSome_concrete? h)
  have hid : found.id = c.id := by simpa using List.find?_some hfound
  have hmem : found ∈ g.concretes := List.mem_of_find?_eq_some hfound
  rw [hfound, List.inj_on_of_nodup_map hids hmem h hid]

end Grammar

namespace Session

variable {s : Session} {wanted : String}

theorem setLanguage_none (s : Session) :
    s.setLanguage none = .ok { s with mode := .abstractNames } := rfl

theorem setLanguage_of_named {c : ConcreteGrammar} (h : s.grammar.named? wanted = some c) :
    s.setLanguage (some wanted) = .ok { s with mode := .concrete c.id } := by
  have hadmits : s.admits (.concrete c.id) = true :=
    Grammar.isSome_concrete? (Grammar.mem_of_named? h)
  simp only [setLanguage, modeFor, h, Except.bind, setMode, hadmits, if_true]

theorem setLanguage_of_unnamed (h : s.grammar.named? wanted = none) :
    s.setLanguage (some wanted) = .error (.noConcreteGrammar wanted) := by
  simp only [setLanguage, modeFor, h, Except.bind]

/-- A refusal is one for want of a concrete grammar. -/
theorem exists_of_setLanguage_eq_error {language : Option String} {cause : SelectError}
    (h : s.setLanguage language = .error cause) :
    ∃ wanted, language = some wanted ∧ cause = .noConcreteGrammar wanted := by
  cases language with
  | none => cases h
  | some wanted =>
    cases hnamed : s.grammar.named? wanted with
    | none =>
      rw [setLanguage_of_unnamed hnamed] at h
      cases h
      exact ⟨wanted, rfl, rfl⟩
    | some c =>
      rw [setLanguage_of_named hnamed] at h
      cases h

/-- A language is set, if one is wanted at all, just if it is a name of a
concrete grammar. -/
theorem exists_setLanguage_eq_ok_iff {language : Option String} :
    (∃ next, s.setLanguage language = .ok next) ↔
      ∀ wanted ∈ language, ∃ c ∈ s.grammar.concretes, c.id = wanted ∨ c.languageTag = wanted := by
  cases language with
  | none => simp [setLanguage_none]
  | some wanted =>
    simp only [Option.mem_some_iff, forall_eq', ← Grammar.isSome_named?_iff]
    cases hnamed : s.grammar.named? wanted with
    | none => simp [setLanguage_of_unnamed hnamed]
    | some c => simp [setLanguage_of_named hnamed]

end Session

end GrammarExplorer
