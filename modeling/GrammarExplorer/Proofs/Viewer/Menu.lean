/-
The menu of alternatives, and who has the focus.

While a menu is open it has the focus, and it is the menu of the node under
the cursor: no key reaches the tree then, so the cursor stays where it is and
the session as it is. What the menu offers is therefore at any time what the
session has to offer for that node, and choosing from it cannot fail. The
other request that a session could refuse is for the next language, which is
always one that the grammar has.
-/
import GrammarExplorer.Proofs.Session.Alternatives
import GrammarExplorer.Proofs.Viewer.Press

namespace GrammarExplorer

/-! ## Messages -/

namespace SelectError

/-- The first letters of a message, enough to tell refusals from anything
else that is said. -/
def opening (text : String) : List Char := text.toList.take 4

/-- How the messages of refusals begin. -/
def openings : List (List Char) :=
  [opening "No function '", opening "Unknown node ", opening "No concrete grammar '"]

theorem opening_append (first rest : String) (h : 4 ≤ first.toList.length) :
    opening (first ++ rest) = opening first := by
  rw [opening, opening, String.toList_append, List.take_append_of_le_length h]

theorem opening_message (cause : SelectError) : opening cause.message ∈ openings := by
  cases cause with
  | noSuchFunction function language =>
    unfold message
    simp only [String.append_assoc]
    rw [opening_append "No function '" _ (by decide)]
    decide
  | unknownNode id =>
    unfold message
    rw [opening_append "Unknown node " _ (by decide)]
    decide
  | noConcreteGrammar wanted =>
    unfold message
    simp only [String.append_assoc]
    rw [opening_append "No concrete grammar '" _ (by decide)]
    decide

theorem ne_message (text : String) (h : opening text ∉ openings) (cause : SelectError) :
    text ≠ cause.message := by
  rintro rfl
  exact h cause.opening_message

theorem append_ne_message (first rest : String) (hlong : 4 ≤ first.toList.length)
    (h : opening first ∉ openings) (cause : SelectError) : first ++ rest ≠ cause.message :=
  ne_message (first ++ rest) (by rwa [opening_append first rest hlong]) cause

end SelectError

namespace Viewer

variable {v : Viewer}

/-! ## Requests that a session could refuse -/

/-- The next language is one that the grammar has. -/
theorem nextLanguage_mem {wanted : String} (h : v.nextLanguage = some wanted) :
    wanted ∈ v.session.grammar.concreteIds := by
  unfold nextLanguage at h
  simp only at h
  split at h
  · exact List.mem_of_head? h
  · split at h
    · exact List.mem_of_getElem? h
    · cases h

theorem perform_cycleLanguage (v : Viewer) : ∃ next text,
    v.session.setLanguage v.nextLanguage = .ok next ∧
      v.perform .cycleLanguage
        = { v with session := next, menu := none, status := "Display: " ++ text } := by
  obtain ⟨next, hnext⟩ := Session.exists_setLanguage fun _ => v.nextLanguage_mem
  refine ⟨next, ({ v with session := next, menu := none } : Viewer).modeText, hnext, ?_⟩
  rw [perform, cycleLanguage, hnext]
  rfl

theorem perform_choose {id : Nat} {chosen : String} {next : Session}
    (h : v.session.select id chosen = .ok next) : v.perform (.choose id chosen)
      = { v with
          session := next
          menu := none
          status := "Selected " ++ chosen
          focus := .tree } := by
  rw [perform, choose, h]

/-! ## The menu at any time -/

/-- How focus, menu and cursors go together, and that no refusal was
reported. -/
structure MenuInOrder (v : Viewer) : Prop where
  focus : v.focus = .alternatives ↔ v.menu.isSome = true
  menu : ∀ m, v.menu = some m → m.node = v.selected ∧
    m.options = v.session.alternatives v.selected ∧ v.highlighted < m.options.length
  status : ∀ cause : SelectError, v.status ≠ cause.message

namespace MenuInOrder

/-- Without a menu the tree has the focus, and there is nothing else to keep
in order. -/
theorem of_closed (hfocus : v.focus = .tree) (hmenu : v.menu = none)
    (hstatus : ∀ cause : SelectError, v.status ≠ cause.message) : MenuInOrder v where
  focus := by simp [hfocus, hmenu]
  menu m hm := by simp [hmenu] at hm
  status := hstatus

theorem menu_eq_none (h : MenuInOrder v) (hfocus : v.focus = .tree) : v.menu = none := by
  have hiff := h.focus
  rw [hfocus] at hiff
  simpa using hiff

theorem exists_highlighted (h : MenuInOrder v) (hfocus : v.focus = .alternatives) :
    ∃ m chosen, v.menu = some m ∧ m.options[v.highlighted]? = some chosen := by
  obtain ⟨m, hm⟩ := Option.isSome_iff_exists.1 (h.focus.1 hfocus)
  exact ⟨m, _, hm, List.getElem?_eq_getElem (h.menu m hm).2.2⟩

/-- The highlighted option is one of those that the session has to offer. -/
theorem exists_select (h : MenuInOrder v) {m : Menu} {chosen : String} (hm : v.menu = some m)
    (hchosen : m.options[v.highlighted]? = some chosen) :
    ∃ next, v.session.select m.node chosen = .ok next := by
  obtain ⟨hnode, hoptions, -⟩ := h.menu m hm
  have hmem : chosen ∈ m.options := List.mem_of_getElem? hchosen
  rw [hoptions] at hmem
  rw [hnode]
  exact Session.exists_select hmem

theorem perform {r : Request} (h : MenuInOrder v) (hasks : v.Asks r) :
    MenuInOrder (v.perform r) := by
  cases hasks with
  | quit => exact { h with }
  | @moveTo id hfocus _ =>
    have hmenu := h.menu_eq_none hfocus
    simp only [Viewer.perform, Viewer.moveTo]
    split
    · exact of_closed hfocus hmenu h.status
    · exact h
  | flip hfocus => exact { h with }
  | offer hfocus =>
    rcases perform_offer v v.selected with ⟨-, heq⟩ | ⟨hne, heq⟩
    · rw [heq]
      exact of_closed hfocus rfl
        (SelectError.ne_message "No alternatives for this node" (by decide))
    · rw [heq]
      refine ⟨by simp, fun m hm => ?_, h.status⟩
      obtain rfl := Option.some.inj hm
      exact ⟨rfl, rfl, List.length_pos_of_ne_nil hne⟩
  | restore hfocus =>
    refine of_closed hfocus (h.menu_eq_none hfocus) ?_
    simp only [Viewer.perform, Viewer.restore]
    split
    · exact SelectError.ne_message "Restored original label" (by decide)
    · exact SelectError.ne_message "Node was never edited" (by decide)
  | restoreAll hfocus =>
    refine of_closed hfocus (h.menu_eq_none hfocus) ?_
    simp only [Viewer.perform, Viewer.restoreAll, String.append_assoc]
    exact SelectError.append_ne_message "Restored " _ (by decide) (by decide)
  | cycleLanguage hfocus =>
    obtain ⟨next, text, -, heq⟩ := v.perform_cycleLanguage
    rw [heq]
    exact of_closed hfocus rfl
      (SelectError.append_ne_message "Display: " text (by decide) (by decide))
  | @highlight m option hfocus hmenu hoption =>
    refine ⟨h.focus, fun m' hm' => ?_, h.status⟩
    obtain ⟨hnode, hoptions, hlt⟩ := h.menu m' hm'
    obtain rfl : m = m' := Option.some.inj (hmenu.symm.trans hm')
    refine ⟨hnode, hoptions, ?_⟩
    rcases hoption with hup | hdown
    · simp only [Viewer.perform, hup]
      omega
    · exact hdown
  | @choose m chosen hfocus hmenu hchosen =>
    obtain ⟨next, hnext⟩ := h.exists_select hmenu hchosen
    rw [perform_choose hnext]
    exact of_closed rfl rfl
      (SelectError.append_ne_message "Selected " chosen (by decide) (by decide))
  | dismiss hfocus => exact of_closed rfl rfl h.status

/-- In the menu, "enter" relabels the node with the highlighted option. -/
theorem press_enter (h : MenuInOrder v) (hfocus : v.focus = .alternatives) {k : Key}
    (hk : k.code = .enter) : ∃ m chosen next, v.menu = some m ∧
      m.options[v.highlighted]? = some chosen ∧
      v.session.select v.selected chosen = .ok next ∧
      v.press k = { v with
        session := next
        menu := none
        status := "Selected " ++ chosen
        focus := .tree } := by
  obtain ⟨m, chosen, hm, hchosen⟩ := h.exists_highlighted hfocus
  obtain ⟨next, hnext⟩ := h.exists_select hm hchosen
  have hrequest : v.request? k = some (.choose m.node chosen) := by
    simp [request?, Key.isQuit, hk, hfocus, menuRequest?, hm, hchosen]
  refine ⟨m, chosen, next, hm, hchosen, (h.menu m hm).1 ▸ hnext, ?_⟩
  rw [press, hrequest]
  exact perform_choose hnext

end MenuInOrder

theorem menuInOrder_ofSession (s : Session) : MenuInOrder (ofSession s) :=
  .of_closed rfl rfl (SelectError.ne_message "" (by decide))

/-- **The menu is always in order.** On any session, after any keys: the focus
is on the menu if and only if there is one. A menu is that of the node under
the cursor; its options are what the session in its present mode has to offer
for that node, of which there are some, and its own cursor is on one of them.
So "enter" in the menu makes a selection that is not refused, and no refusal
is ever shown in the status line. -/
theorem menu_pressAll (s : Session) (keys : List Key) :
    let v := (ofSession s).pressAll keys
    (v.focus = .alternatives ↔ v.menu.isSome = true) ∧
      (∀ m, v.menu = some m → m.node = v.selected ∧ m.options ≠ [] ∧
        m.options = v.session.alternatives v.selected ∧ v.highlighted < m.options.length) ∧
      (v.focus = .alternatives → ∀ k, k.code = .enter →
        ∃ m chosen next, v.menu = some m ∧ m.options[v.highlighted]? = some chosen ∧
          v.session.select v.selected chosen = .ok next ∧ (v.press k).session = next ∧
          (v.press k).status = "Selected " ++ chosen) ∧
      (∀ cause : SelectError, v.status ≠ cause.message) := by
  intro v
  have h : MenuInOrder v := pressAll_keeps MenuInOrder.perform (menuInOrder_ofSession s) keys
  refine ⟨h.focus, fun m hm => ?_, fun hfocus k hk => ?_, h.status⟩
  · obtain ⟨hnode, hoptions, hlt⟩ := h.menu m hm
    exact ⟨hnode, List.ne_nil_of_length_pos (Nat.zero_lt_of_lt hlt), hoptions, hlt⟩
  · obtain ⟨m, chosen, next, hm, hchosen, hnext, hpress⟩ := h.press_enter hfocus hk
    refine ⟨m, chosen, next, hm, hchosen, hnext, ?_, ?_⟩
    · rw [hpress]
    · rw [hpress]

end Viewer

end GrammarExplorer
