/-
Edits of different nodes are independent.

What a selection or a reset answers, and what it does, hangs on its own node
and on the settings of the session, which no such operation changes. So two
sessions that agree at a node (`AgreeAt`) answer an operation on it alike and
agree there again, and an operation on another node changes nothing there. By
induction, a node is after a run what the operations on this node alone make
of it, with the same answers, whatever is done in between (`AgreeAt.run`).
What a selection finds does not even hang on the node, as long as there is
one.
-/
import GrammarExplorer.Proofs.Session.Diagnostics

namespace GrammarExplorer.Session

open DerivationTree

/-- The node that a selection or a reset is made on. No other operation is
made on one node. -/
def Operation.target? : Operation → Option Nat
  | .select id _ | .reset id => some id
  | .resetAll | .setMode _ | .setLanguage _ | .setSeparator _ => none

/-- The operations on a node, in their order. -/
def callsOn (id : Nat) (os : List Operation) : List Operation :=
  os.filter fun o => o.target? = some id

/-- The operations of a run, each with its answer. -/
def answers (s : Session) : List Operation → List (Operation × Answer)
  | [] => []
  | o :: os => (o, (s.apply o).2) :: answers (s.apply o).1 os

/-- The operations on a node in a run, each with its answer. -/
def answersOn (s : Session) (id : Nat) (os : List Operation) : List (Operation × Answer) :=
  (s.answers os).filter fun a => a.1.target? = some id

/-- Whether two sessions have one grammar and look at it in one way. -/
structure SameSettings (s u : Session) : Prop where
  grammar : u.grammar = s.grammar
  mode : u.mode = s.mode
  separator : u.separator = s.separator

/-- Whether two sessions cannot be told apart at a node. -/
structure AgreeAt (id : Nat) (s u : Session) : Prop extends SameSettings s u where
  node : u.tree.node? id = s.tree.node? id

variable {s u : Session} {id : Nat} {o : Operation} {os xs ys : List Operation}

/-! ## Single operations -/

theorem SameSettings.labelFor (h : SameSettings s u) (chosen : String) :
    u.labelFor chosen = s.labelFor chosen := by
  simp only [Session.labelFor, argumentsOf, h.grammar, h.mode, h.separator]

theorem AgreeAt.contains (h : AgreeAt id s u) : u.tree.contains id = s.tree.contains id := by
  rw [← isSome_node?, ← isSome_node?, h.node]

theorem AgreeAt.edited (h : AgreeAt id s u) : u.tree.edited id = s.tree.edited id := by
  rw [DerivationTree.edited, DerivationTree.edited, h.node]

/-- A selection or a reset leaves the settings as they are. -/
theorem sameSettings_apply (s : Session) (ho : o.target?.isSome) :
    SameSettings s (s.apply o).1 := by
  cases o with
  | select i chosen =>
    simp only [apply]
    cases h : s.select i chosen with
    | error e => exact ⟨rfl, rfl, rfl⟩
    | ok next =>
      obtain ⟨-, label, found, -, rfl⟩ := select_eq_ok h
      exact ⟨rfl, rfl, rfl⟩
  | reset i =>
    simp only [apply, reset_eq]
    exact ⟨rfl, rfl, rfl⟩
  | resetAll | setMode mode | setLanguage language | setSeparator separator => cases ho

/-- An operation on a node does the same, and gives the same answer, where
all is the same at this node. -/
theorem AgreeAt.apply (h : AgreeAt id s u) (ho : o.target? = some id) :
    AgreeAt id (s.apply o).1 (u.apply o).1 ∧ (u.apply o).2 = (s.apply o).2 := by
  cases o with
  | select i chosen =>
    cases ho
    simp only [Session.apply, select, h.contains, h.labelFor]
    split
    · cases s.labelFor chosen with
      | error e => exact ⟨h, rfl⟩
      | ok made => exact ⟨⟨⟨h.grammar, h.mode, h.separator⟩, by simp [attempt, h.node]⟩, rfl⟩
    · exact ⟨h, rfl⟩
  | reset i =>
    cases ho
    simp only [Session.apply, reset_eq, h.edited]
    exact ⟨⟨⟨h.grammar, h.mode, h.separator⟩, by simp [h.node]⟩, trivial⟩
  | resetAll | setMode mode | setLanguage language | setSeparator separator => cases ho

/-- An operation on a node can only give this node new labels. -/
theorem relabeledAt_of_target? (s : Session) (ho : o.target? = some id) :
    RelabeledAt id s.tree (s.apply o).1.tree := by
  cases o with
  | select i chosen =>
    cases ho
    exact relabeledAt_select s id chosen
  | reset i =>
    cases ho
    exact relabeledAt_reset s id
  | resetAll | setMode mode | setLanguage language | setSeparator separator => cases ho

/-- So it may be left out, as far as another node goes. -/
theorem AgreeAt.apply_of_ne (h : AgreeAt id s u) {i : Nat} (ho : o.target? = some i)
    (hne : i ≠ id) : AgreeAt id (s.apply o).1 u := by
  have hs := sameSettings_apply s (Option.isSome_of_mem ho)
  have hnode : (s.apply o).1.tree.node? id = s.tree.node? id := by
    obtain ⟨label, firstLabel, htree⟩ := relabeledAt_of_target? s ho
    rw [htree, node?_modify, if_neg hne]
  exact ⟨⟨h.grammar.trans hs.grammar.symm, h.mode.trans hs.mode.symm,
    h.separator.trans hs.separator.symm⟩, h.node.trans hnode.symm⟩

theorem contains_apply (s : Session) (o : Operation) (id : Nat) :
    (s.apply o).1.tree.contains id = s.tree.contains id := by
  rw [DerivationTree.contains, DerivationTree.contains, ← size_original, original_apply,
    size_original]

/-- What an operation finds is there to be found before and after any edit. -/
theorem findings_apply (s : Session) (ho : o.target?.isSome) (p : Operation) :
    (s.apply o).1.findings p = s.findings p := by
  have hs := sameSettings_apply s ho
  cases p with
  | select i chosen =>
    simp only [findings, functionInMode?, argumentsOf, hs.grammar, hs.mode, contains_apply]
  | reset i | resetAll | setMode mode | setLanguage language | setSeparator separator => rfl

/-! ## Runs -/

/-- A run makes of a node what the operations on it alone make of it, and
gives them the same answers. -/
theorem AgreeAt.run (h : AgreeAt id s u) (hos : ∀ o ∈ os, o.target?.isSome) :
    AgreeAt id (s.run os) (u.run (callsOn id os)) ∧
      s.answersOn id os = u.answers (callsOn id os) := by
  induction os generalizing s u with
  | nil => exact ⟨h, rfl⟩
  | cons o os ih =>
    have hrest : ∀ p ∈ os, p.target?.isSome := fun p hp => hos p (List.mem_cons_of_mem _ hp)
    obtain ⟨i, hi⟩ := Option.isSome_iff_exists.1 (hos o List.mem_cons_self)
    -- The second session follows an operation on the node and sits out any other.
    by_cases hid : i = id
    · subst hid
      obtain ⟨hnext, hanswer⟩ := h.apply hi
      obtain ⟨hrun, hanswers⟩ := ih hnext hrest
      have hcalls : callsOn i (o :: os) = o :: callsOn i os :=
        List.filter_cons_of_pos (by simp [hi])
      have hhere : s.answersOn i (o :: os)
          = (o, (s.apply o).2) :: (s.apply o).1.answersOn i os :=
        List.filter_cons_of_pos (by simp [hi])
      rw [hcalls, hhere, answers, hanswer, hanswers]
      exact ⟨hrun, rfl⟩
    · obtain ⟨hrun, hanswers⟩ := ih (h.apply_of_ne hi hid) hrest
      have hcalls : callsOn id (o :: os) = callsOn id os :=
        List.filter_cons_of_neg (by simp [hi, hid])
      have hhere : s.answersOn id (o :: os) = (s.apply o).1.answersOn id os :=
        List.filter_cons_of_neg (by simp [hi, hid])
      rw [hcalls, hhere]
      exact ⟨hrun, hanswers⟩

/-- Edits find what each of them would have found at the start. -/
theorem discoveries_of_edits (hos : ∀ o ∈ os, o.target?.isSome) :
    s.discoveries os = os.flatMap s.findings := by
  induction os generalizing s with
  | nil => rfl
  | cons o os ih =>
    have hrest : ∀ p ∈ os, p.target?.isSome := fun p hp => hos p (List.mem_cons_of_mem _ hp)
    rw [discoveries, ih hrest, List.flatMap_cons]
    congr 2
    funext p
    exact findings_apply s (hos o List.mem_cons_self) p

theorem mem_of_callsOn (h : ∀ id, callsOn id xs = callsOn id ys)
    (hxs : ∀ o ∈ xs, o.target?.isSome) (ho : o ∈ xs) : o ∈ ys := by
  obtain ⟨id, hid⟩ := Option.isSome_iff_exists.1 (hxs o ho)
  have hcall : o ∈ callsOn id xs := List.mem_filter.2 ⟨ho, decide_eq_true hid⟩
  rw [h id] at hcall
  exact (List.mem_filter.1 hcall).1

/-- **Edits of different nodes are independent.** Take two sequences of
selections and resets that for each node have the same operations on it in the
same order. From any session, both lead to the same tree; each operation gets
the same answer in both; and afterwards the same diagnostics are listed,
though perhaps in another order. -/
theorem independent_edits (s : Session) {xs ys : List Operation}
    (hxs : ∀ o ∈ xs, o.target?.isSome) (hys : ∀ o ∈ ys, o.target?.isSome)
    (h : ∀ id, callsOn id xs = callsOn id ys) :
    (s.run xs).tree = (s.run ys).tree ∧
      (∀ id, s.answersOn id xs = s.answersOn id ys) ∧
      ∀ d, d ∈ (s.run xs).diagnostics ↔ d ∈ (s.run ys).diagnostics := by
  have hrefl : ∀ id, AgreeAt id s s := fun id => ⟨⟨rfl, rfl, rfl⟩, rfl⟩
  refine ⟨ext_node? fun id => ?_, fun id => ?_, fun d => ?_⟩
  · rw [← ((hrefl id).run hxs).1.node, h id, ((hrefl id).run hys).1.node]
  · rw [((hrefl id).run hxs).2, h id, ((hrefl id).run hys).2]
  · have hsame : ∀ o, o ∈ xs ↔ o ∈ ys := fun o =>
      ⟨mem_of_callsOn h hxs, mem_of_callsOn (fun id => (h id).symm) hys⟩
    simp only [diagnostics_run, Diagnostic.mem_noteAll, discoveries_of_edits hxs,
      discoveries_of_edits hys, List.mem_flatMap, hsame]

/-- Edits of two nodes, with a refused one on each of them and one outside the
tree, in two orders. -/
theorem independent_edits_twin :
    let xs : List Operation := [.select 0 "f", .select 2 "a", .reset 0, .select 9 "f", .select 2 "b",
      .select 0 "b", .reset 2]
    let ys : List Operation := [.select 9 "f", .select 2 "a", .select 2 "b", .select 0 "f", .reset 2,
      .reset 0, .select 0 "b"]
    ((∀ o ∈ xs, o.target?.isSome) ∧ (∀ o ∈ ys, o.target?.isSome) ∧
      ∀ id, callsOn id xs = callsOn id ys) ∧
    (twinSession.run xs).tree = (twinSession.run ys).tree ∧
      (∀ id, twinSession.answersOn id xs = twinSession.answersOn id ys) ∧
      ∀ d, d ∈ (twinSession.run xs).diagnostics ↔ d ∈ (twinSession.run ys).diagnostics := by
  intro xs ys
  have hxs : ∀ o ∈ xs, o.target?.isSome := by decide
  have hys : ∀ o ∈ ys, o.target?.isSome := by decide
  have hcalls : ∀ id, callsOn id xs = callsOn id ys := by
    intro id
    by_cases h0 : id = 0
    · subst h0; decide
    by_cases h2 : id = 2
    · subst h2; decide
    by_cases h9 : id = 9
    · subst h9; decide
    simp [xs, ys, callsOn, Operation.target?, Ne.symm h0, Ne.symm h2, Ne.symm h9]
  exact ⟨⟨hxs, hys, hcalls⟩, independent_edits twinSession hxs hys hcalls⟩

end GrammarExplorer.Session
