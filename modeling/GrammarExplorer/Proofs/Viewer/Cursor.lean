/-
The cursor is never on a hidden line.

It moves from line to line of the outline as it is shown, and of all nodes
only the one under the cursor is ever folded or unfolded, which may hide what
is below it and not itself. No other request reaches the cursor or the folds,
and what the session does neither shows nor hides a line.
-/
import GrammarExplorer.Proofs.Viewer.Outline
import GrammarExplorer.Proofs.Viewer.Press

namespace GrammarExplorer

namespace Viewer

open DerivationTree

variable {g : Grammar} {category : String} {u v : Viewer}

/-- The nodes that have a line. -/
def shownIds (v : Viewer) : List Nat := v.outline.map (·.id)

theorem ExploresFrom.mem_shownIds (h : ExploresFrom g category v) {id : Nat} : id ∈ v.shownIds ↔
    v.session.tree.contains id = true ∧
      ∀ a ∈ v.session.tree.ancestors id, v.isOpen a = true :=
  Outline.mem_ids_lines h.original v.folds

theorem ExploresFrom.nodup_shownIds (h : ExploresFrom g category v) : v.shownIds.Nodup :=
  Outline.nodup_ids_lines h.original v.folds

/-- Only the folds tell what is shown. -/
theorem ExploresFrom.shownIds_eq (hu : ExploresFrom g category u) (hv : ExploresFrom g category v)
    (hfolds : u.folds = v.folds) : u.shownIds = v.shownIds := by
  rw [shownIds, shownIds, outline, outline, Outline.ids_lines_original hu.original,
    Outline.ids_lines_original hv.original, hfolds]

/-- The lines next to a line that is shown are shown, and others than it. -/
theorem ExploresFrom.neighbour (h : ExploresFrom g category v) {a b : Nat}
    (hpair : [a, b] <:+: v.shownIds) : a ∈ v.shownIds ∧ b ∈ v.shownIds ∧ a ≠ b := by
  have hnodup : [a, b].Nodup := hpair.sublist.nodup h.nodup_shownIds
  exact ⟨hpair.subset (by simp), hpair.subset (by simp), by simpa using hnodup⟩

theorem ExploresFrom.next? (h : ExploresFrom g category v) {id : Nat}
    (hnext : v.next? v.selected = some id) : id ∈ v.shownIds ∧ id ≠ v.selected := by
  have hpair := (Outline.next?_eq_some_iff h.nodup_shownIds).1 hnext
  exact ⟨(h.neighbour hpair).2.1, (h.neighbour hpair).2.2.symm⟩

theorem ExploresFrom.previous? (h : ExploresFrom g category v) {id : Nat}
    (hprevious : v.previous? v.selected = some id) : id ∈ v.shownIds ∧ id ≠ v.selected := by
  have hpair := (Outline.previous?_eq_some_iff h.nodup_shownIds).1 hprevious
  exact ⟨(h.neighbour hpair).1, (h.neighbour hpair).2.2⟩

/-! ## What moves the cursor, and what folds -/

/-- Two requests apart, none reaches the cursor or the folds. -/
theorem view_perform {r : Request} (hmove : ∀ id, r ≠ .moveTo id) (hflip : ∀ id, r ≠ .flip id) :
    (v.perform r).selected = v.selected ∧ (v.perform r).folds = v.folds := by
  cases r with
  | moveTo id => exact absurd rfl (hmove id)
  | flip id => exact absurd rfl (hflip id)
  | quit | highlight | dismiss | restore | restoreAll => exact ⟨rfl, rfl⟩
  | offer id =>
    rcases perform_offer v id with ⟨-, heq⟩ | ⟨-, heq⟩ <;> rw [heq] <;> exact ⟨rfl, rfl⟩
  | choose id chosen =>
    simp only [perform, choose]
    cases v.session.select id chosen <;> exact ⟨rfl, rfl⟩
  | cycleLanguage =>
    simp only [perform, cycleLanguage]
    cases v.session.setLanguage v.nextLanguage <;> exact ⟨rfl, rfl⟩

/-- The cursor goes to any node of the tree. -/
theorem perform_moveTo {id : Nat} (h : v.session.tree.contains id = true) :
    v.perform (.moveTo id) = { v with selected := id } := by
  rw [perform, moveTo, if_pos h]

/-- Folding a node does not hide the node itself. -/
theorem ExploresFrom.mem_shownIds_flip (h : ExploresFrom g category v) {id : Nat}
    (hmem : id ∈ v.shownIds) : id ∈ (v.perform (.flip id)).shownIds := by
  obtain ⟨hin, hopen⟩ := h.mem_shownIds.1 hmem
  refine (h.perform (.flip id)).mem_shownIds.2 ⟨hin, fun a ha => ?_⟩
  have hne : a ≠ id := Nat.ne_of_lt (lt_of_mem_ancestors ha)
  have hflip : (v.perform (.flip id)).isOpen a = v.isOpen a := by
    show (v.folds.flip id).isOpen v.session.tree a = v.folds.isOpen v.session.tree a
    rw [Folds.isOpen_flip, if_neg hne]
  rw [hflip]
  exact hopen a ha

/-- Whether the cursor is on a line that is shown. -/
def CursorShown (g : Grammar) (category : String) (v : Viewer) : Prop :=
  ExploresFrom g category v ∧ v.selected ∈ v.shownIds

theorem CursorShown.perform {r : Request} (h : CursorShown g category v) (hasks : v.Asks r) :
    CursorShown g category (v.perform r) := by
  obtain ⟨hfrom, hmem⟩ := h
  refine ⟨hfrom.perform r, ?_⟩
  have hother : ∀ {r : Request}, (∀ id, r ≠ .moveTo id) → (∀ id, r ≠ .flip id) →
      (v.perform r).selected ∈ (v.perform r).shownIds := by
    intro r hmove hflip
    obtain ⟨hselected, hfolds⟩ := view_perform (v := v) hmove hflip
    rw [hselected, (hfrom.perform r).shownIds_eq hfrom hfolds]
    exact hmem
  cases hasks with
  | moveTo _ hid =>
    have hshown := hid.elim (fun h => hfrom.next? h) (fun h => hfrom.previous? h)
    rw [perform_moveTo (hfrom.mem_shownIds.1 hshown.1).1]
    exact hshown.1
  | flip => exact hfrom.mem_shownIds_flip hmem
  | quit | offer | restore | restoreAll | cycleLanguage | highlight | choose | dismiss =>
    exact hother (by simp) (by simp)

/-- At the start every line is shown. -/
theorem cursorShown_ofSession (g : Grammar) (category : String)
    (operations : List Session.Operation) :
    CursorShown g category (ofSession ((Session.ofCategory g category).run operations)) := by
  have hfrom : ExploresFrom g category
      (ofSession ((Session.ofCategory g category).run operations)) := ⟨operations, rfl⟩
  exact ⟨hfrom, List.mem_of_head? (Outline.head?_ids_lines hfrom.original _)⟩

/-! ## Keys -/

theorem press_down {k : Key} (hfocus : v.focus = .tree) (hk : k.code = .down) :
    v.press k = match v.next? v.selected with
      | some id => v.perform (.moveTo id)
      | none => v := by
  have hrequest : v.request? k = (v.next? v.selected).map .moveTo := by
    simp [request?, Key.isQuit, hk, hfocus, treeRequest?]
  rw [press, hrequest]
  cases v.next? v.selected <;> rfl

theorem press_up {k : Key} (hfocus : v.focus = .tree) (hk : k.code = .up) :
    v.press k = match v.previous? v.selected with
      | some id => v.perform (.moveTo id)
      | none => v := by
  have hrequest : v.request? k = (v.previous? v.selected).map .moveTo := by
    simp [request?, Key.isQuit, hk, hfocus, treeRequest?]
  rw [press, hrequest]
  cases v.previous? v.selected <;> rfl

/-- **The cursor is never lost.** Whatever operations led to the session of a
viewer, and whatever keys were pressed since: the node under the cursor has a
line in the outline, every node above it being unfolded. So while the tree
has the focus, "down" leaves the cursor where it is on the last line alone,
and "up" on the root alone. -/
theorem cursor_pressAll (g : Grammar) (category : String) (operations : List Session.Operation)
    (keys : List Key) :
    let v := (ofSession ((Session.ofCategory g category).run operations)).pressAll keys
    v.selected ∈ v.outline.map (·.id) ∧
      (∀ a ∈ v.session.tree.ancestors v.selected, v.isOpen a = true) ∧
      (v.focus = .tree → ∀ k, k.code = .down → (v.press k).selected = v.selected →
        (v.outline.map (·.id)).getLast? = some v.selected) ∧
      (v.focus = .tree → ∀ k, k.code = .up → (v.press k).selected = v.selected →
        v.selected = root) := by
  intro v
  obtain ⟨hfrom, hmem⟩ : CursorShown g category v :=
    pressAll_keeps CursorShown.perform (cursorShown_ofSession g category operations) keys
  have hmoved : ∀ {id}, id ∈ v.shownIds → (v.perform (.moveTo id)).selected = id := by
    intro id hid
    rw [perform_moveTo (hfrom.mem_shownIds.1 hid).1]
  refine ⟨hmem, (hfrom.mem_shownIds.1 hmem).2, fun hfocus k hk hsame => ?_,
    fun hfocus k hk hsame => ?_⟩
  · rw [press_down hfocus hk] at hsame
    cases hnext : v.next? v.selected with
    | none => exact Outline.getLast?_of_next?_eq_none hfrom.nodup_shownIds hmem hnext
    | some id =>
      obtain ⟨hid, hne⟩ := hfrom.next? hnext
      rw [hnext, hmoved hid] at hsame
      exact absurd hsame hne
  · rw [press_up hfocus hk] at hsame
    cases hprevious : v.previous? v.selected with
    | none =>
      have hfirst := Outline.head?_of_previous?_eq_none hfrom.nodup_shownIds hmem hprevious
      rw [outline, Outline.head?_ids_lines hfrom.original] at hfirst
      exact (Option.some.inj hfirst).symm
    | some id =>
      obtain ⟨hid, hne⟩ := hfrom.previous? hprevious
      rw [hprevious, hmoved hid] at hsame
      exact absurd hsame hne

end Viewer

end GrammarExplorer
