/-
The keys that edit.

Which keys reach the session, and as which operation, is written down apart
from how the panes read keys (`edit?`). The panes agree with it: what a key
asks for comes to that operation (`operation?_request?`), and so the viewer
does to its session what a run of operations does, key by key
(`session_pressAll`). Cursor and folds belong to the viewer alone. The two
requests that reach them are no operations, and no operation adds nodes to the
tree or takes any away.
-/
import GrammarExplorer.Proofs.Session.Independence
import GrammarExplorer.Proofs.Viewer.Cursor

namespace GrammarExplorer.Viewer

/-- The selection of the highlighted option of the menu. -/
def highlightedSelection? (v : Viewer) : Option Session.Operation := do
  let menu ← v.menu
  let chosen ← menu.options[v.highlighted]?
  return .select menu.node chosen

/-- The operation on the session that a key is, if it is one. -/
def edit? (v : Viewer) (k : Key) : Option Session.Operation :=
  if v.focus = .alternatives then
    if k.code = .enter then v.highlightedSelection? else none
  else if k.code = .character 'r' ∧ k.control = false ∧ k.shift = false ∧ k.alt = false then
    some (.reset v.selected)
  else if k.code = .character 'R' ∧ k.control = false then some .resetAll
  else if k.code = .character 'l' ∧ k.control = false ∧ k.shift = false ∧ k.alt = false then
    some (.setLanguage v.nextLanguage)
  else none

/-- The operations that some keys are, one key after the other. -/
def edits (v : Viewer) : List Key → List Session.Operation
  | [] => []
  | k :: keys => (v.edit? k).toList ++ (v.press k).edits keys

variable {v : Viewer} {k : Key}

/-! ## Requests -/

theorem isPlain_iff : k.isPlain = true ↔ k.control = false ∧ k.shift = false ∧ k.alt = false := by
  simp [Key.isPlain, and_assoc]

theorem edit?_of_isQuit (h : k.isQuit = true) : v.edit? k = none := by
  have hcode : k.code = .character 'q' ∨ k.code = .character 'c' := by
    simp only [Key.isQuit, Bool.or_eq_true, Bool.and_eq_true, beq_iff_eq] at h
    exact h.imp And.left And.left
  rcases hcode with hq | hc
  · simp [edit?, hq]
  · simp [edit?, hc]

theorem operation?_treeRequest? (hfocus : v.focus = .tree) :
    (v.treeRequest? k).bind v.operation? = v.edit? k := by
  unfold treeRequest?
  split
  next hk => cases v.previous? v.selected <;> simp [operation?, edit?, hfocus, hk]
  next hk => cases v.next? v.selected <;> simp [operation?, edit?, hfocus, hk]
  next hk => simp [operation?, edit?, hfocus, hk]
  next hk => simp [operation?, edit?, hfocus, hk]
  next hk => simp [operation?, edit?, hfocus, hk]
  next hk => cases hplain : k.isPlain <;> simp [operation?, edit?, hfocus, hk, ← isPlain_iff, hplain]
  next hk => cases hcontrol : k.control <;> simp [operation?, edit?, hfocus, hk, hcontrol]
  next hk => cases hplain : k.isPlain <;> simp [operation?, edit?, hfocus, hk, ← isPlain_iff, hplain]
  next _ _ _ _ _ hr hR hl =>
    rw [edit?, if_neg (by simp [hfocus]), if_neg (fun h => hr h.1), if_neg (fun h => hR h.1),
      if_neg (fun h => hl h.1), Option.bind_none]

theorem operation?_menuRequest? (hfocus : v.focus = .alternatives) :
    (v.menuRequest? k).bind v.operation? = v.edit? k := by
  unfold menuRequest?
  split
  next hmenu => simp [operation?, edit?, highlightedSelection?, hfocus, hmenu]
  next menu hmenu =>
  split
  next hk => simp [operation?, edit?, hfocus, hk]
  next hk => split <;> simp [operation?, edit?, hfocus, hk]
  next hk =>
    split
    next chosen hchosen =>
      simp [operation?, edit?, highlightedSelection?, hfocus, hk, hmenu, hchosen]
    next hnone => simp [operation?, edit?, highlightedSelection?, hfocus, hk, hmenu, hnone]
  next hk => simp [operation?, edit?, hfocus, hk]
  next _ _ hk _ => rw [edit?, if_pos hfocus, if_neg hk, Option.bind_none]

/-- What a key asks for comes to the operation that the key is. -/
theorem operation?_request? (v : Viewer) (k : Key) :
    (v.request? k).bind v.operation? = v.edit? k := by
  unfold request?
  split
  next hquit => rw [edit?_of_isQuit hquit]; rfl
  next =>
    split
    next hfocus => exact operation?_treeRequest? hfocus
    next hfocus => exact operation?_menuRequest? hfocus

/-! ## Sessions -/

theorem session_press (v : Viewer) (k : Key) :
    (v.press k).session = v.session.run (v.edit? k).toList := by
  rw [← operation?_request?, press]
  cases v.request? k with
  | none => rfl
  | some r => exact session_perform v r

theorem session_pressAll (v : Viewer) (keys : List Key) :
    (v.pressAll keys).session = v.session.run (v.edits keys) := by
  induction keys generalizing v with
  | nil => rfl
  | cons k keys ih =>
    calc ((v.press k).pressAll keys).session
        = (v.press k).session.run ((v.press k).edits keys) := ih (v.press k)
      _ = (v.session.run (v.edit? k).toList).run ((v.press k).edits keys) := by
        rw [session_press]
      _ = v.session.run (v.edits (k :: keys)) := List.foldl_append.symm

/-! ## Cursor and folds -/

/-- A key that edits asks for something else than to move or to fold. -/
theorem view_press {o : Session.Operation} (h : v.edit? k = some o) :
    (v.press k).selected = v.selected ∧ (v.press k).folds = v.folds := by
  rw [← operation?_request?] at h
  obtain ⟨r, hr, ho⟩ := Option.bind_eq_some_iff.1 h
  rw [press, hr]
  refine view_perform (fun id hmove => ?_) (fun id hflip => ?_)
  · subst hmove
    cases ho
  · subst hflip
    cases ho

/-- So it leaves every node as folded as it was. -/
theorem isOpen_press {o : Session.Operation} (h : v.edit? k = some o) (id : Nat) :
    (v.press k).isOpen id = v.isOpen id := by
  have hsession : (v.press k).session = (v.session.apply o).1 := by
    rw [session_press, h]
    rfl
  rw [isOpen, isOpen, Folds.isOpen, Folds.isOpen, (view_press h).2, hsession,
    Session.contains_apply]

/-- **The viewer refines the session.** In whatever state the viewer is, to
its session a key is just one operation or nothing at all: "enter" in the menu
is the selection of the highlighted option, and while the tree has the focus,
"r" is a reset of the node under the cursor, "R" one of all nodes, and "l" the
change to the next language; "r" and "l" only with no other key held, "R" only
without control. A key that is an operation moves neither the cursor nor any
fold, and a key after which nothing is drawn again has changed nothing. So any
keys lead to the session that the operations among them lead to. -/
theorem refines_session (v : Viewer) (k : Key) (keys : List Key) :
    (∀ o, v.edit? k = some o →
      (v.press k).session = (v.session.apply o).1 ∧ (v.press k).selected = v.selected ∧
        ∀ id, (v.press k).isOpen id = v.isOpen id) ∧
    (v.edit? k = none → (v.press k).session = v.session) ∧
    (v.redraws k = false → v.press k = v) ∧
    (v.pressAll keys).session = v.session.run (v.edits keys) := by
  refine ⟨fun o ho => ⟨?_, (view_press ho).1, isOpen_press ho⟩, fun hnone => ?_, fun hstill => ?_,
    session_pressAll v keys⟩
  · rw [session_press, ho]
    rfl
  · rw [session_press, hnone]
    rfl
  · have hnone : v.request? k = none := by
      rw [redraws, Bool.or_eq_false_iff] at hstill
      exact Option.isNone_iff_eq_none.1 (Option.isSome_eq_false_iff.1 hstill.1)
    rw [press, hnone]

end GrammarExplorer.Viewer
