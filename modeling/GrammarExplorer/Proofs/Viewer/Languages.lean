/-
Going through the languages.

The modes of a grammar are put in a row, that of the abstract names and then
those of the concrete grammars. The viewer finds the next one by its place in
this row and asks for it by its name; as an id goes before a tag, and no two
grammars have one id, it gets the one it has found (`setLanguage_id`). So a
change of the language is one step around the row (`cycleLanguage_eq`), and
nothing but the mode, the menu and the message is any different after it.
-/
import GrammarExplorer.Proofs.Grammar.Load
import GrammarExplorer.Proofs.Session.Refusals
import GrammarExplorer.Proofs.Viewer.Menu
import Mathlib.Data.List.Iterate
import Mathlib.Data.List.Rotate

namespace GrammarExplorer

/-! ## The modes in a row -/

namespace Grammar

variable {g : Grammar}

/-- Every mode there is for a grammar. -/
def modes (g : Grammar) : List DisplayMode :=
  .abstractNames :: g.concreteIds.map .concrete

theorem length_modes (g : Grammar) : g.modes.length = g.concreteIds.length + 1 := by
  simp [modes]

theorem nodup_modes (hids : g.concreteIds.Nodup) : g.modes.Nodup := by
  refine List.nodup_cons.2 ⟨by simp, hids.map ?_⟩
  intro a b heq
  exact DisplayMode.concrete.inj heq

/-- Behind the mode in a place comes that of the concrete grammar in the same
place, and behind the last mode the first. -/
theorem getElem?_modes_succ {i : Nat} (hi : i < g.modes.length) :
    g.modes[(i + 1) % g.modes.length]?
      = some (g.concreteIds[i]?.elim .abstractNames .concrete) := by
  rw [length_modes] at hi ⊢
  rcases Nat.lt_or_eq_of_le (Nat.le_of_lt_succ hi) with hlt | rfl
  · rw [Nat.mod_eq_of_lt (Nat.succ_lt_succ hlt), modes, List.getElem?_cons_succ, List.getElem?_map,
      List.getElem?_eq_getElem hlt]
    rfl
  · rw [Nat.mod_self, List.getElem?_eq_none (Nat.le_refl _)]
    rfl

end Grammar

namespace Session

variable {s : Session}

/-- The modes that a session admits are those in the row. -/
theorem mem_modes_iff {mode : DisplayMode} : mode ∈ s.grammar.modes ↔ s.admits mode = true := by
  rw [admits_iff, Grammar.modes, Grammar.concreteIds, List.map_map, List.mem_cons, List.mem_map]
  simp only [Function.comp_apply, eq_comm]

/-- By its id, a concrete grammar is found whatever the tags are. -/
theorem setLanguage_id {id : String} (h : id ∈ s.grammar.concreteIds) :
    s.setLanguage (some id) = .ok { s with mode := .concrete id } := by
  obtain ⟨next, hnext⟩ : ∃ next, s.setLanguage (some id) = .ok next :=
    exists_setLanguage fun _ heq => Option.some.inj heq ▸ h
  have hid : ∃ c ∈ s.grammar.concretes, c.id = id := List.mem_map.1 h
  rw [hnext, (mode_of_setLanguage hnext).1 hid]

end Session

namespace Viewer

theorem setLanguage_nextLanguage (v : Viewer) : v.session.setLanguage v.nextLanguage
    = .ok { v.session with mode := v.nextLanguage.elim .abstractNames .concrete } := by
  cases hnext : v.nextLanguage with
  | none => rfl
  | some wanted => exact Session.setLanguage_id (nextLanguage_mem hnext)

section Cycle

variable {v : Viewer} {g : Grammar} {i : Nat} (hgrammar : v.session.grammar = g)
  (hids : g.concreteIds.Nodup) (hi : g.modes[i]? = some v.session.mode)

include hgrammar hids hi

/-- The next language is in the same place among the languages as the present
mode among the modes. -/
theorem nextLanguage_eq : v.nextLanguage = g.concreteIds[i]? := by
  cases i with
  | zero =>
    have hmode : v.session.mode = .abstractNames := (Option.some.inj hi).symm
    rw [nextLanguage, hgrammar, hmode]
    exact List.head?_eq_getElem?
  | succ i =>
    rw [Grammar.modes, List.getElem?_cons_succ, List.getElem?_map, Option.map_eq_some_iff] at hi
    obtain ⟨id, hid, hmode⟩ := hi
    obtain ⟨hlt, rfl⟩ := List.getElem?_eq_some_iff.1 hid
    rw [nextLanguage, hgrammar, ← hmode]
    simp only [List.contains_iff_mem, List.getElem_mem, if_true, hids.idxOf_getElem]

/-- A change of the language is a step around the row of modes. -/
theorem cycleLanguage_eq : ∃ mode text, g.modes[(i + 1) % g.modes.length]? = some mode ∧
    v.cycleLanguage = { v with
      session := { v.session with mode }
      menu := none
      status := "Display: " ++ text } := by
  obtain ⟨next, text, hnext, hcycle⟩ := v.perform_cycleLanguage
  rw [setLanguage_nextLanguage, nextLanguage_eq hgrammar hids hi] at hnext
  cases hnext
  have hlt : i < g.modes.length := (List.getElem?_eq_some_iff.1 hi).1
  exact ⟨_, text, Grammar.getElem?_modes_succ hlt, hcycle⟩

/-- So many changes are as many steps. -/
theorem cycleLanguage_iterate (j : Nat) : ∃ mode menu status,
    g.modes[(i + j) % g.modes.length]? = some mode ∧
      cycleLanguage^[j] v = { v with session := { v.session with mode }, menu, status } := by
  induction j with
  | zero =>
    have hlt : i < g.modes.length := (List.getElem?_eq_some_iff.1 hi).1
    refine ⟨v.session.mode, v.menu, v.status, ?_, rfl⟩
    rw [Nat.add_zero, Nat.mod_eq_of_lt hlt, hi]
  | succ j ih =>
    obtain ⟨mode, menu, status, hmode, hcycle⟩ := ih
    obtain ⟨mode', text, hmode', hcycle'⟩ := cycleLanguage_eq
      (v := { v with session := { v.session with mode }, menu, status }) hgrammar hids hmode
    refine ⟨mode', none, "Display: " ++ text, ?_, ?_⟩
    · rw [← hmode', Nat.mod_add_mod, Nat.add_assoc]
    · rw [Function.iterate_succ_apply', hcycle, hcycle']

/-- As many changes as there are modes go once around. -/
theorem map_mode_iterate : (List.iterate cycleLanguage v.cycleLanguage g.modes.length).map
    (·.session.mode) = g.modes.rotate (i + 1) := by
  refine List.ext_getElem? fun j => ?_
  by_cases hj : j < g.modes.length
  · obtain ⟨mode, menu, status, hmode, hcycle⟩ := cycleLanguage_iterate hgrammar hids hi (j + 1)
    rw [List.getElem?_rotate hj, List.getElem?_map, List.getElem?_iterate _ _ _ _ hj,
      ← Function.iterate_succ_apply, hcycle, Nat.add_left_comm j i 1, hmode]
    rfl
  · rw [List.getElem?_eq_none (by simpa using hj), List.getElem?_eq_none (by simpa using hj)]

end Cycle

/-- **Going through the languages comes round.** Of every viewer of a session
in any state on the grammar of a document: the modes are that of the abstract
names and then those of the concrete grammars, in the order of the document, no
two of them the same. A change of the language is never refused; as many of them
as there are modes lead through the modes in this order, from the one behind the
present mode on, to each of them just once, and end where they began. No number
of changes makes a difference to the session but for its mode, and none to the
cursor or the folds. -/
theorem languages_cycle {document : Json} (hkeyed : document.keyed = true) {g : Grammar}
    (hg : Grammar.ofJson document = .ok g) (category : String)
    (operations : List Session.Operation) (view : Viewer) :
    let v := { view with session := (Session.ofCategory g category).run operations }
    let around := (List.iterate cycleLanguage v.cycleLanguage g.modes.length).map (·.session.mode)
    (∃ members, Document.concreteMembers document = .ok members ∧
      g.modes = .abstractNames :: members.map fun m => .concrete m.1) ∧
    g.modes.Nodup ∧
    (∃ i, g.modes[i]? = some v.session.mode ∧ around = g.modes.rotate (i + 1)) ∧
    (∀ mode ∈ g.modes, around.count mode = 1) ∧
    (cycleLanguage^[g.modes.length] v).session.mode = v.session.mode ∧
    ∀ j, let u := cycleLanguage^[j] v
      (∃ next text, u.session.setLanguage u.nextLanguage = .ok next ∧ u.cycleLanguage
        = { u with session := next, menu := none, status := "Display: " ++ text }) ∧
      u.session = { v.session with mode := u.session.mode } ∧
      u.selected = v.selected ∧ u.folds = v.folds := by
  intro v around
  have hdocument := Grammar.document_of_ofJson hg
  obtain ⟨members, hmembers, hids⟩ := Document.exists_concreteMembers hdocument
  have hnodup : g.concreteIds.Nodup := Document.nodup_concreteIds hkeyed hdocument
  have hmodes : g.modes.Nodup := Grammar.nodup_modes hnodup
  have hgrammar : v.session.grammar = g := Session.grammar_run _ operations
  have hmode : v.session.mode ∈ g.modes :=
    hgrammar ▸ Session.mem_modes_iff.2 (Session.admits_run_ofCategory g category operations)
  obtain ⟨i, hi⟩ := List.mem_iff_getElem?.1 hmode
  have hround : around = g.modes.rotate (i + 1) := map_mode_iterate hgrammar hnodup hi
  refine ⟨⟨members, hmembers, ?_⟩, hmodes, ⟨i, hi, hround⟩, fun mode hmem => ?_, ?_, ?_⟩
  · rw [Grammar.modes, hids, List.map_map]
    rfl
  · rw [hround, (List.rotate_perm _ _).count_eq]
    exact List.count_eq_one_of_mem hmodes hmem
  · obtain ⟨mode, menu, status, hback, hcycle⟩ :=
      cycleLanguage_iterate hgrammar hnodup hi g.modes.length
    rw [Nat.add_mod_right, Nat.mod_eq_of_lt (List.getElem?_eq_some_iff.1 hi).1, hi] at hback
    rw [hcycle]
    exact (Option.some.inj hback).symm
  · intro j u
    obtain ⟨mode, menu, status, -, hcycle⟩ := cycleLanguage_iterate hgrammar hnodup hi j
    refine ⟨u.perform_cycleLanguage, ?_⟩
    rw [show u = _ from hcycle]
    exact ⟨rfl, rfl, rfl⟩

/-- Two languages, of which the first has the id of the second for its tag, and
the second has the same tag. -/
def borrowedDocument : Json :=
  let language : Json := .object [("flags", .object [("language", .string "B")])]
  .object [
    ("abstract", .object [("startcat", .string "S"), ("funs", .object [])]),
    ("concretes", .object [("A", language), ("B", language)])]

/-- Its grammar. -/
def borrowedGrammar : Grammar where
  abstractGrammar := ⟨"", "S", []⟩
  concretes := [.ofTables "A" "B" [] [], .ofTables "B" "B" [] []]
  diagnostics := []

/-- From the first language on, whose tag is the id of the next. -/
theorem languages_cycle_borrowed :
    let v := ofSession ((Session.ofCategory borrowedGrammar "S").run [.setLanguage (some "A")])
    let around := (List.iterate cycleLanguage v.cycleLanguage 3).map (·.session.mode)
    borrowedDocument.keyed = true ∧ Grammar.ofJson borrowedDocument = .ok borrowedGrammar ∧
      borrowedGrammar.modes = [.abstractNames, .concrete "A", .concrete "B"] ∧
      v.session.mode = .concrete "A" ∧
      (∃ i, borrowedGrammar.modes[i]? = some v.session.mode ∧
        around = borrowedGrammar.modes.rotate (i + 1)) ∧
      ∀ mode ∈ borrowedGrammar.modes, around.count mode = 1 := by
  intro v around
  have hload : Grammar.ofJson borrowedDocument = .ok borrowedGrammar := rfl
  obtain ⟨-, -, hround, honce, -⟩ :=
    languages_cycle (by decide) hload "S" [.setLanguage (some "A")] v
  exact ⟨by decide, hload, rfl, rfl, hround, honce⟩

end Viewer

end GrammarExplorer
