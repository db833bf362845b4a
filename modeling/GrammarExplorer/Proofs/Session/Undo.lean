/-
A run of operations can be undone.

All that an operation can do to a session is said once (`apply_cases`). What
it does to the tree is one of three things (`tree_apply`): nothing, a new
label for one node, or the first labels of some nodes put back. All three keep
what the tree was before all edits, and only a selection adds an edited node;
so by induction the tree of a run differs from the first one in nothing but
edits, and the edited nodes are those of the selections (`editedFrom_run`).
The label before the first edit is remembered at the first edit and never
again, which is what makes this hold for any interleaving.
-/
import GrammarExplorer.Proofs.Derivation.Edits
import GrammarExplorer.Proofs.Derivation.Simulation
import GrammarExplorer.Session.Operation
import Mathlib.Data.Finset.Card

namespace GrammarExplorer.Session

open DerivationTree

/-! ## Single operations -/

/-- The node for which an operation makes a selection that is not refused. -/
def selected? (s : Session) : Operation → Option Nat
  | .select id chosen =>
    match s.select id chosen with
    | .ok _ => some id
    | .error _ => none
  | _ => none

/-- The nodes for which a run makes selections that are not refused. -/
def selections (s : Session) : List Operation → List Nat
  | [] => []
  | o :: os => (s.selected? o).toList ++ selections (s.apply o).1 os

theorem select_eq_ok {s next : Session} {id : Nat} {chosen : String}
    (h : s.select id chosen = .ok next) : s.tree.contains id = true ∧
      ∃ label found, s.labelFor chosen = .ok (label, found) ∧
        next = { s with
          tree := s.tree.modify id (·.relabel label)
          diagnostics := Diagnostic.noteAll s.diagnostics found } := by
  unfold select at h
  split at h
  · next hin =>
    refine ⟨hin, ?_⟩
    split at h
    · cases h
    · next label found hlabel =>
      cases h
      exact ⟨label, found, hlabel, rfl⟩
  · cases h

theorem setMode_eq_ok {s next : Session} {mode : DisplayMode} (h : s.setMode mode = .ok next) :
    s.admits mode = true ∧ next = { s with mode } := by
  unfold setMode at h
  split at h
  · cases h
    exact ⟨rfl, rfl⟩
  · split at h
    · next hadmits =>
      cases h
      exact ⟨hadmits, rfl⟩
    · cases h

theorem setLanguage_eq_ok {s next : Session} {language : Option String}
    (h : s.setLanguage language = .ok next) :
    ∃ mode, s.admits mode = true ∧ next = { s with mode } := by
  unfold setLanguage at h
  cases hm : s.modeFor language with
  | error e => rw [hm] at h; cases h
  | ok mode =>
    rw [hm] at h
    exact ⟨mode, setMode_eq_ok h⟩

theorem tree_setMode {s next : Session} {mode : DisplayMode} (h : s.setMode mode = .ok next) :
    next.tree = s.tree := by
  rw [(setMode_eq_ok h).2]

theorem tree_setLanguage {s next : Session} {language : Option String}
    (h : s.setLanguage language = .ok next) : next.tree = s.tree := by
  obtain ⟨mode, -, rfl⟩ := setLanguage_eq_ok h
  rfl

theorem tree_attempt {s : Session} {r : Except SelectError Session}
    (h : ∀ next, r = .ok next → next.tree = s.tree) : (s.attempt r).1.tree = s.tree := by
  cases r with
  | error e => rfl
  | ok next => exact h next rfl

/-- The answer tells the two cases apart, but without an edit there is
nothing to put back. -/
theorem reset_eq (s : Session) (id : Nat) :
    s.reset id = ({ s with tree := s.tree.modify id (·.restore) }, s.tree.edited id) := by
  have hcan : s.canReset id = s.tree.edited id := rfl
  rw [reset, hcan]
  cases h : s.tree.edited id with
  | true => rfl
  | false => rw [DerivationTree.restore_of_not_edited h]; rfl

theorem foldl_reset (s : Session) (ids : List Nat) :
    ids.foldl (fun s id => (s.reset id).1) s = { s with tree := s.tree.restoreAt ids } := by
  induction ids generalizing s with
  | nil => rfl
  | cons id ids ih =>
    rw [List.foldl_cons, ih, reset_eq]
    rfl

theorem resetAll_eq (s : Session) :
    s.resetAll = ({ s with tree := s.tree.restoreAt s.tree.editedNodes },
      s.tree.editedNodes.length) := by
  rw [resetAll, foldl_reset]
  rfl

/-- All that an operation can do to a session: nothing, a selection that is
not refused, first labels put back, another mode, or another separator. -/
theorem apply_cases (s : Session) (o : Operation) :
    (s.selected? o = none ∧ (s.apply o).1 = s) ∨
    (∃ id chosen label found, o = .select id chosen ∧ s.selected? o = some id ∧
      s.tree.contains id = true ∧ s.labelFor chosen = .ok (label, found) ∧
      (s.apply o).1 = { s with
        tree := s.tree.modify id (·.relabel label)
        diagnostics := Diagnostic.noteAll s.diagnostics found }) ∨
    (s.selected? o = none ∧ ∃ ids, (s.apply o).1 = { s with tree := s.tree.restoreAt ids }) ∨
    (s.selected? o = none ∧ ∃ mode, s.admits mode = true ∧ (s.apply o).1 = { s with mode }) ∨
    (s.selected? o = none ∧ ∃ separator, (s.apply o).1 = { s with separator }) := by
  cases o with
  | select id chosen =>
    cases h : s.select id chosen with
    | error e => exact .inl ⟨by simp [selected?, h], by simp [apply, attempt, h]⟩
    | ok next =>
      obtain ⟨hin, label, found, hlabel, rfl⟩ := select_eq_ok h
      exact .inr (.inl ⟨id, chosen, label, found, rfl, by simp [selected?, h], hin, hlabel,
        by simp [apply, attempt, h]⟩)
  | reset id =>
    refine .inr (.inr (.inl ⟨rfl, [id], ?_⟩))
    simp only [apply, reset_eq]
    rfl
  | resetAll =>
    refine .inr (.inr (.inl ⟨rfl, s.tree.editedNodes, ?_⟩))
    simp only [apply, resetAll_eq]
  | setMode mode =>
    cases h : s.setMode mode with
    | error e => exact .inl ⟨rfl, by simp [apply, attempt, h]⟩
    | ok next =>
      obtain ⟨hadmits, rfl⟩ := setMode_eq_ok h
      exact .inr (.inr (.inr (.inl ⟨rfl, mode, hadmits, by simp [apply, attempt, h]⟩)))
  | setLanguage language =>
    cases h : s.setLanguage language with
    | error e => exact .inl ⟨rfl, by simp [apply, attempt, h]⟩
    | ok next =>
      obtain ⟨mode, hadmits, rfl⟩ := setLanguage_eq_ok h
      exact .inr (.inr (.inr (.inl ⟨rfl, mode, hadmits, by simp [apply, attempt, h]⟩)))
  | setSeparator separator => exact .inr (.inr (.inr (.inr ⟨rfl, separator, rfl⟩)))

/-- All that an operation can do to the tree. -/
theorem tree_apply (s : Session) (o : Operation) :
    (s.selected? o = none ∧ (s.apply o).1.tree = s.tree) ∨
    (∃ id label, s.selected? o = some id ∧ s.tree.contains id = true ∧
      (s.apply o).1.tree = s.tree.modify id (·.relabel label)) ∨
    (s.selected? o = none ∧ ∃ ids, (s.apply o).1.tree = s.tree.restoreAt ids) := by
  rcases apply_cases s o with ⟨hsel, h⟩ | ⟨id, chosen, label, found, -, hsel, hin, -, h⟩ |
    ⟨hsel, ids, h⟩ | ⟨hsel, mode, -, h⟩ | ⟨hsel, separator, h⟩
  · exact .inl ⟨hsel, by rw [h]⟩
  · exact .inr (.inl ⟨id, label, hsel, hin, by rw [h]⟩)
  · exact .inr (.inr ⟨hsel, ids, by rw [h]⟩)
  · exact .inl ⟨hsel, by rw [h]⟩
  · exact .inl ⟨hsel, by rw [h]⟩

/-! ## Runs -/

section Runs

variable {start : DerivationTree} {ids : List Nat}

theorem editedFrom_apply {s : Session} (h : EditedFrom start ids s.tree) (o : Operation) :
    EditedFrom start (ids ++ (s.selected? o).toList) (s.apply o).1.tree := by
  rcases tree_apply s o with ⟨hsel, htree⟩ | ⟨id, label, hsel, hin, htree⟩ | ⟨hsel, nodes, htree⟩
  · rw [hsel, htree, Option.toList_none, List.append_nil]
    exact h
  · rw [hsel, htree, Option.toList_some]
    exact h.relabel hin label
  · rw [hsel, htree, Option.toList_none, List.append_nil]
    exact h.restoreAt nodes

theorem editedFrom_run {s : Session} (h : EditedFrom start ids s.tree) (os : List Operation) :
    EditedFrom start (ids ++ s.selections os) (s.run os).tree := by
  induction os generalizing s ids with
  | nil => rwa [selections, List.append_nil]
  | cons o os ih =>
    rw [selections, ← List.append_assoc]
    exact ih (editedFrom_apply h o)

end Runs

/-! ## Sessions on a category -/

section OfCategory

variable (g : Grammar) (category : String) (operations : List Operation)

theorem tree_ofCategory : (ofCategory g category).tree
    = ofRose (Expansion.ofCategory g.abstractGrammar category) :=
  tree_build g.abstractGrammar category

/-- After a run, the tree is the one of the start but for the edits that were
made by selections. -/
theorem editedFrom_run_ofCategory :
    EditedFrom (ofCategory g category).tree ((ofCategory g category).selections operations)
      ((ofCategory g category).run operations).tree := by
  have hstart : EditedFrom (ofCategory g category).tree [] (ofCategory g category).tree := by
    rw [tree_ofCategory]
    exact EditedFrom.ofRose _
  exact editedFrom_run hstart operations

/-- After a run, the walk still passes every node, in its place. -/
theorem walk_run_ofCategory :
    ((ofCategory g category).run operations).tree.walk
      = List.range ((ofCategory g category).run operations).tree.size := by
  have h := editedFrom_run_ofCategory g category operations
  rw [h.walk, h.size, tree_ofCategory, walk_ofRose]

end OfCategory

/-! ## Putting all labels back -/

section ResetAll

variable {s : Session}

/-- With the walk passing every node, resetting the nodes that it finds puts
back all labels there are. -/
theorem resetAll_of_walk (hw : s.tree.walk = List.range s.tree.size) :
    s.resetAll = ({ s with tree := s.tree.restored }, s.tree.editedNodes.length) := by
  rw [resetAll_eq, restoreAt_editedNodes hw]

theorem resetAll_resetAll (hw : s.tree.walk = List.range s.tree.size) :
    s.resetAll.1.resetAll = s.resetAll := by
  have hrestored : s.tree.restored.walk = List.range s.tree.restored.size := by
    rw [walk_restored, hw, size_restored]
  rw [resetAll_of_walk hw, resetAll_of_walk hrestored]
  simp only [restored_restored, editedNodes_restored]

variable {start : DerivationTree} {ids : List Nat}

theorem snapshot_resetAll (h : EditedFrom start ids s.tree)
    (hw : s.tree.walk = List.range s.tree.size) :
    s.resetAll.1.snapshot
      = (Snapshot.ofTree start).map fun e => { e with edited := decide (e.id ∈ ids) } := by
  have hmark : (fun e : SnapshotEntry => { e with edited := decide (e.id ∈ ids) })
      = Snapshot.mark s.tree := by
    funext e
    rw [Snapshot.mark, Bool.eq_iff_iff.2 (decide_eq_true_iff.trans (h.edited e.id).symm)]
  rw [resetAll_of_walk hw, snapshot, hmark, Snapshot.ofTree_restored, h.original]

/-- A snapshot shows every edited node. -/
theorem exists_entry (h : EditedFrom start ids s.tree)
    (hw : s.tree.walk = List.range s.tree.size) {id : Nat} (hid : id ∈ ids) :
    ∃ e ∈ (Snapshot.ofTree start).preorder, e.id = id := by
  have hmem : id ∈ (Snapshot.ofTree start).preorder.map (·.id) := by
    rw [Snapshot.ids_ofTree, ← h.walk, hw, List.mem_range]
    exact lt_size_of_edited ((h.edited id).2 hid)
  exact List.mem_map.1 hmem

theorem length_editedNodes (h : EditedFrom start ids s.tree)
    (hw : s.tree.walk = List.range s.tree.size) :
    s.tree.editedNodes.length = ids.toFinset.card := by
  have hnodup : s.tree.editedNodes.Nodup := by
    rw [editedNodes_eq, hw]
    exact List.nodup_range.filter _
  have hmem : s.tree.editedNodes.toFinset = ids.toFinset := by
    ext id
    rw [List.mem_toFinset, List.mem_toFinset, mem_editedNodes hw, h.edited]
  rw [← hmem, List.toFinset_card_of_nodup hnodup]

end ResetAll

/-- **A run can be undone.** From the session on any category, after any
operations in any order, refused or not, resetting all edited nodes shows
the snapshot of the start again, with a mark on those nodes for which a
selection was made; and all of these are shown. The answer is the number of
these nodes, and a second time nothing changes and the answer is the same. -/
theorem resetAll_run (g : Grammar) (category : String) (operations : List Operation) :
    let start := ofCategory g category
    let chosen := start.selections operations
    let undone := (start.run operations).resetAll
    undone.1.snapshot
        = start.snapshot.map (fun e => { e with edited := decide (e.id ∈ chosen) }) ∧
      (∀ id, id ∈ chosen ↔ ∃ e ∈ undone.1.snapshot.preorder, e.id = id ∧ e.edited = true) ∧
      undone.2 = chosen.toFinset.card ∧
      undone.1.resetAll = undone := by
  intro start chosen undone
  have hrun : EditedFrom start.tree chosen (start.run operations).tree :=
    editedFrom_run_ofCategory g category operations
  have hwalk := walk_run_ofCategory g category operations
  have hsnapshot : undone.1.snapshot
      = start.snapshot.map (fun e => { e with edited := decide (e.id ∈ chosen) }) :=
    snapshot_resetAll hrun hwalk
  refine ⟨hsnapshot, fun id => ?_, length_editedNodes hrun hwalk, resetAll_resetAll hwalk⟩
  rw [hsnapshot, Rose.preorder_map]
  constructor
  · intro hid
    obtain ⟨e, he, rfl⟩ := exists_entry hrun hwalk hid
    exact ⟨_, List.mem_map_of_mem he, rfl, decide_eq_true hid⟩
  · rintro ⟨e, he, rfl, hedited⟩
    obtain ⟨e, he, rfl⟩ := List.mem_map.1 he
    exact of_decide_eq_true hedited

end GrammarExplorer.Session
