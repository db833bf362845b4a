/-
Up and down the outline.

The line below and the line above are read off one list in which no node comes
twice, so each of the two leads back to where the other came from
(`next?_eq_some_iff_previous?`), and there is none of them at an end of the list
and outside it alone. Keys that take the cursor along a path leave nothing
behind but the cursor (`cursors_of_isChain`); the whole outline is such a path,
downwards from its first line and upwards from its last.
-/
import GrammarExplorer.Proofs.Session.Offers
import GrammarExplorer.Proofs.Viewer.Cursor
import Mathlib.Data.List.Chain

namespace GrammarExplorer

namespace Outline

section Neighbours

variable {lines : List OutlineLine} (hnodup : (lines.map (·.id)).Nodup) {a b : Nat}

include hnodup

/-- Each direction is the way back of the other. -/
theorem next?_eq_some_iff_previous? : next? lines a = some b ↔ previous? lines b = some a :=
  (next?_eq_some_iff hnodup).trans (previous?_eq_some_iff hnodup).symm

theorem next?_eq_none_iff :
    next? lines a = none ↔ a ∉ lines.map (·.id) ∨ (lines.map (·.id)).getLast? = some a := by
  constructor
  · intro hnone
    by_cases hmem : a ∈ lines.map (·.id)
    · exact .inr (getLast?_of_next?_eq_none hnodup hmem hnone)
    · exact .inl hmem
  · intro hend
    rw [Option.eq_none_iff_forall_ne_some]
    intro b hnext
    obtain ⟨before, after, hids⟩ := (next?_eq_some_iff hnodup).1 hnext
    rcases hend with hout | hlast
    · exact hout (hids ▸ by simp)
    · rw [← hids] at hnodup hlast
      have hafter : a ∈ b :: after := List.mem_of_getLast? (by simpa using hlast)
      simp only [List.append_assoc, List.cons_append, List.nil_append] at hnodup
      exact (List.nodup_cons.1 (List.nodup_append.1 hnodup).2.1).1 hafter

theorem previous?_eq_none_iff :
    previous? lines b = none ↔ b ∉ lines.map (·.id) ∨ (lines.map (·.id)).head? = some b := by
  constructor
  · intro hnone
    by_cases hmem : b ∈ lines.map (·.id)
    · exact .inr (head?_of_previous?_eq_none hnodup hmem hnone)
    · exact .inl hmem
  · intro hend
    rw [Option.eq_none_iff_forall_ne_some]
    intro a hprevious
    obtain ⟨before, after, hids⟩ := (previous?_eq_some_iff hnodup).1 hprevious
    rcases hend with hout | hfirst
    · exact hout (hids ▸ by simp)
    · rw [← hids] at hnodup hfirst
      have hbefore : b ∈ before ++ [a] := List.mem_of_head? (by simpa using hfirst)
      rw [List.append_cons before a, List.append_assoc] at hnodup
      exact (List.nodup_append.1 hnodup).2.2 b hbefore b (by simp) rfl

/-- From line to line, an outline is a path downwards. -/
theorem isChain_next? : (lines.map (·.id)).IsChain fun a b => next? lines a = some b := by
  rw [List.isChain_iff_forall_rel_of_append_cons_cons]
  intro a b before after hids
  exact (next?_eq_some_iff hnodup).2 ⟨before, after, by simp [hids]⟩

/-- And backwards it is one upwards. -/
theorem isChain_previous? :
    (lines.map (·.id)).reverse.IsChain fun b a => previous? lines b = some a := by
  rw [List.isChain_reverse]
  exact (isChain_next? hnodup).imp fun a b => (next?_eq_some_iff_previous? hnodup).1

end Neighbours

end Outline

namespace Viewer

open DerivationTree

variable {g : Grammar} {category : String} {v : Viewer}

theorem ExploresFrom.pressAll (h : ExploresFrom g category v) (keys : List Key) :
    ExploresFrom g category (v.pressAll keys) :=
  pressAll_keeps (fun h _ => h.perform _) h keys

theorem ExploresFrom.head?_shownIds (h : ExploresFrom g category v) :
    v.shownIds.head? = some root :=
  Outline.head?_ids_lines h.original v.folds

/-- The nodes that have a line come in the order of the walk. -/
theorem ExploresFrom.shownIds_eq_filter_walk (h : ExploresFrom g category v) : v.shownIds
    = v.session.tree.walk.filter fun x => (v.session.tree.ancestors x).all v.isOpen := by
  have hwalk : v.session.tree.walk = List.range v.session.tree.size := by
    rw [← walk_original, h.original, walk_ofRose, ← h.original, size_original]
  rw [hwalk]
  exact Outline.ids_lines h.original v.folds

/-! ## Paths of the cursor -/

/-- The nodes under the cursor while keys are pressed, from the present one
on. -/
def cursors (v : Viewer) : List Key → List Nat
  | [] => [v.selected]
  | k :: keys => v.selected :: (v.press k).cursors keys

/-- Keys each of which takes the cursor one step, along a path of such steps,
leave the cursor at its end. -/
theorem cursors_of_isChain {step : Nat → Nat → Prop} {keys : List Key} {path : List Nat} {last : Nat}
    (hstep : ∀ k ∈ keys, ∀ a b, step a b →
      press { v with selected := a } k = { v with selected := b })
    (hpath : path.IsChain step) (hfirst : path.head? = some v.selected)
    (hlast : path.getLast? = some last) (hlength : keys.length + 1 = path.length) :
    v.cursors keys = path ∧ v.pressAll keys = { v with selected := last } := by
  induction keys generalizing v path with
  | nil =>
    obtain ⟨a, rfl⟩ := List.length_eq_one_iff.1 hlength.symm
    obtain rfl : a = v.selected := Option.some.inj hfirst
    obtain rfl : v.selected = last := Option.some.inj hlast
    exact ⟨rfl, rfl⟩
  | cons k keys ih =>
    obtain ⟨a, path, rfl⟩ := List.exists_cons_of_length_eq_add_one hlength.symm
    obtain ⟨b, path, rfl⟩ := List.exists_cons_of_length_eq_add_one (Nat.succ.inj hlength).symm
    obtain rfl : a = v.selected := Option.some.inj hfirst
    rw [List.isChain_cons_cons] at hpath
    have hpress : v.press k = { v with selected := b } := hstep k (by simp) v.selected b hpath.1
    obtain ⟨hcursors, hrest⟩ := ih (v := { v with selected := b })
      (fun k hk => hstep k (List.mem_cons_of_mem _ hk)) hpath.2 rfl hlast (Nat.succ.inj hlength)
    rw [cursors, pressAll, List.foldl_cons, hpress, hcursors]
    exact ⟨rfl, hrest⟩

section Presses

variable (h : ExploresFrom g category v) (hfocus : v.focus = .tree)

include h hfocus

theorem ExploresFrom.press_down {k : Key} (hk : k.code = .down) {a b : Nat}
    (hnext : v.next? a = some b) :
    press { v with selected := a } k = { v with selected := b } := by
  have hshown : b ∈ v.shownIds :=
    (h.neighbour ((Outline.next?_eq_some_iff h.nodup_shownIds).1 hnext)).2.1
  have hmove : ({ v with selected := a } : Viewer).next? a = some b := hnext
  rw [Viewer.press_down (v := { v with selected := a }) hfocus hk, hmove]
  exact perform_moveTo (h.mem_shownIds.1 hshown).1

theorem ExploresFrom.press_up {k : Key} (hk : k.code = .up) {a b : Nat}
    (hprevious : v.previous? b = some a) :
    press { v with selected := b } k = { v with selected := a } := by
  have hshown : a ∈ v.shownIds :=
    (h.neighbour ((Outline.previous?_eq_some_iff h.nodup_shownIds).1 hprevious)).1
  have hmove : ({ v with selected := b } : Viewer).previous? b = some a := hprevious
  rw [Viewer.press_up (v := { v with selected := b }) hfocus hk, hmove]
  exact perform_moveTo (h.mem_shownIds.1 hshown).1

variable {keys : List Key} {last : Nat} (hlast : v.shownIds.getLast? = some last)
  (hlength : keys.length + 1 = v.shownIds.length)

include hlast hlength

/-- "Down" goes from the root through all lines to the last one. -/
theorem ExploresFrom.pressAll_down (hroot : v.selected = root) (hkeys : ∀ k ∈ keys, k.code = .down) :
    v.cursors keys = v.shownIds ∧ v.pressAll keys = { v with selected := last } :=
  cursors_of_isChain (fun k hk _ _ => h.press_down hfocus (hkeys k hk))
    (Outline.isChain_next? h.nodup_shownIds) (hroot ▸ h.head?_shownIds) hlast hlength

/-- "Up" goes from the last line through all lines back to the root. -/
theorem ExploresFrom.pressAll_up (hselected : v.selected = last)
    (hkeys : ∀ k ∈ keys, k.code = .up) :
    v.cursors keys = v.shownIds.reverse ∧ v.pressAll keys = { v with selected := root } := by
  refine cursors_of_isChain (fun k hk _ _ => h.press_up hfocus (hkeys k hk))
    (Outline.isChain_previous? h.nodup_shownIds) ?_ ?_ ?_
  · rw [List.head?_reverse, hlast, hselected]
  · rw [List.getLast?_reverse, h.head?_shownIds]
  · rw [List.length_reverse, hlength]

end Presses

/-- **Up and down.** Of every viewer that keys lead to, of a session in any
state and with any folds: "the line below" and "the line above" undo each
other. There is no line below the last line and a node that has none, and no
line above the root and a node that has none; the nodes with a line are those
of the walk through the tree with nothing but unfolded nodes above them, each
of them once. So while the tree has the focus and the cursor is on the root, as
many "down" as there are lines but one take the cursor through all of them in
this order, and as many "up" take it back over the same nodes, after which the
viewer is as it was. -/
theorem traversal_pressAll (g : Grammar) (category : String) (operations : List Session.Operation)
    (view : Viewer) (keys : List Key) :
    let v := pressAll { view with session := (Session.ofCategory g category).run operations } keys
    let t := v.session.tree
    (∀ a b, v.next? a = some b ↔ v.previous? b = some a) ∧
    (∀ a, v.next? a = none ↔ a ∉ v.shownIds ∨ v.shownIds.getLast? = some a) ∧
    (∀ b, v.previous? b = none ↔ b ∉ v.shownIds ∨ b = root) ∧
    (v.shownIds.Nodup ∧ v.shownIds = t.walk.filter fun x => (t.ancestors x).all v.isOpen) ∧
    (v.focus = .tree → v.selected = root → ∀ downs ups : List Key,
      (∀ k ∈ downs, k.code = .down) → (∀ k ∈ ups, k.code = .up) →
      downs.length + 1 = v.shownIds.length → ups.length = downs.length →
        v.cursors downs = v.shownIds ∧ (v.pressAll downs).cursors ups = v.shownIds.reverse ∧
          (v.pressAll downs).pressAll ups = v) := by
  intro v t
  have hfrom : ExploresFrom g category v :=
    ExploresFrom.pressAll ⟨operations, rfl⟩ keys
  have hnodup : v.shownIds.Nodup := hfrom.nodup_shownIds
  refine ⟨fun a b => Outline.next?_eq_some_iff_previous? hnodup,
    fun a => Outline.next?_eq_none_iff hnodup, fun b => ?_,
    ⟨hnodup, hfrom.shownIds_eq_filter_walk⟩,
    fun hfocus hroot downs ups hdowns hups hlength hback => ?_⟩
  · rw [previous?, Outline.previous?_eq_none_iff hnodup, outline,
      Outline.head?_ids_lines hfrom.original, Option.some.injEq, eq_comm (a := root)]
    rfl
  · have hne : v.shownIds ≠ [] := List.ne_nil_of_length_pos (by omega)
    have hlast := List.getLast?_eq_some_getLast hne
    obtain ⟨hcursors, hdown⟩ := hfrom.pressAll_down hfocus hlast hlength hroot hdowns
    have hbottom : ExploresFrom g category (v.pressAll downs) := hfrom.pressAll downs
    rw [hdown] at hbottom ⊢
    obtain ⟨hcursors', hup⟩ := hbottom.pressAll_up hfocus hlast (hback ▸ hlength) rfl hups
    refine ⟨hcursors, hcursors', hup.trans ?_⟩
    rw [← hroot]

/-- With a fold on the way down there are four lines, and three keys. -/
theorem traversal_of_twin_keys :
    let v := (ofSession twinSession).pressAll ([.down, .down, .left, .up, .up].map .plain)
    let downs := List.replicate 3 (Key.plain .down)
    let ups := List.replicate 3 (Key.plain .up)
    (v.focus = .tree ∧ v.selected = root ∧ v.shownIds = [0, 1, 2, 4]) ∧
      v.cursors downs = v.shownIds ∧ (v.pressAll downs).cursors ups = v.shownIds.reverse ∧
        (v.pressAll downs).pressAll ups = v := by
  intro v downs ups
  have hfocus : v.focus = .tree := by decide +kernel
  have hroot : v.selected = root := by decide +kernel
  have hids : v.shownIds = [0, 1, 2, 4] := by decide +kernel
  obtain ⟨-, -, -, -, hkeys⟩ := traversal_pressAll twinGrammar "S" [.setLanguage (some "en")]
    (ofSession twinSession) ([.down, .down, .left, .up, .up].map .plain)
  exact ⟨⟨hfocus, hroot, hids⟩, hkeys hfocus hroot downs ups (by decide) (by decide)
    (hids ▸ rfl) rfl⟩

end Viewer

end GrammarExplorer
