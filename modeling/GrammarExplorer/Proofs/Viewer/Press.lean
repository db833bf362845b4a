/-
What the press of a key comes to.

Which requests there can be in a state is said once (`Asks`): the tree asks
for things while it has the focus, the menu while the focus is on it. So what
every such request keeps, any number of keys keeps (`pressAll_keeps`). To the
session a request is one operation at most (`session_perform`); hence the
session of a viewer is always one that operations lead to.
-/
import GrammarExplorer.Proofs.Session.Integrity
import GrammarExplorer.Viewer.Key

namespace GrammarExplorer

namespace Viewer

variable {v : Viewer}

/-- What can be asked for in a state. -/
inductive Asks (v : Viewer) : Request → Prop
  | quit : Asks v .quit
  | moveTo {id : Nat} (hfocus : v.focus = .tree)
      (hid : v.next? v.selected = some id ∨ v.previous? v.selected = some id) :
      Asks v (.moveTo id)
  | flip (hfocus : v.focus = .tree) : Asks v (.flip v.selected)
  | offer (hfocus : v.focus = .tree) : Asks v (.offer v.selected)
  | restore (hfocus : v.focus = .tree) : Asks v (.restore v.selected)
  | restoreAll (hfocus : v.focus = .tree) : Asks v .restoreAll
  | cycleLanguage (hfocus : v.focus = .tree) : Asks v .cycleLanguage
  | highlight {menu : Menu} {option : Nat} (hfocus : v.focus = .alternatives)
      (hmenu : v.menu = some menu)
      (hoption : option = v.highlighted - 1 ∨ option < menu.options.length) :
      Asks v (.highlight option)
  | choose {menu : Menu} {chosen : String} (hfocus : v.focus = .alternatives)
      (hmenu : v.menu = some menu) (hchosen : menu.options[v.highlighted]? = some chosen) :
      Asks v (.choose menu.node chosen)
  | dismiss (hfocus : v.focus = .alternatives) : Asks v .dismiss

theorem asks_of_treeRequest? {k : Key} {r : Request} (hfocus : v.focus = .tree)
    (h : v.treeRequest? k = some r) : v.Asks r := by
  unfold treeRequest? at h
  split at h
  · obtain ⟨id, hid, rfl⟩ := Option.map_eq_some_iff.1 h
    exact .moveTo hfocus (.inr hid)
  · obtain ⟨id, hid, rfl⟩ := Option.map_eq_some_iff.1 h
    exact .moveTo hfocus (.inl hid)
  · cases h
    exact .flip hfocus
  · cases h
    exact .flip hfocus
  · cases h
    exact .offer hfocus
  · split at h
    · cases h
      exact .restore hfocus
    · cases h
  · split at h
    · cases h
    · cases h
      exact .restoreAll hfocus
  · split at h
    · cases h
      exact .cycleLanguage hfocus
    · cases h
  · cases h

theorem asks_of_menuRequest? {k : Key} {r : Request} (hfocus : v.focus = .alternatives)
    (h : v.menuRequest? k = some r) : v.Asks r := by
  unfold menuRequest? at h
  split at h
  · cases h
    exact .dismiss hfocus
  next menu hmenu =>
  split at h
  · cases h
    exact .highlight hfocus hmenu (.inl rfl)
  · split at h
    · next hlt =>
      cases h
      exact .highlight hfocus hmenu (.inr hlt)
    · cases h
  · split at h
    · next chosen hchosen =>
      cases h
      exact .choose hfocus hmenu hchosen
    · cases h
      exact .dismiss hfocus
  · cases h
    exact .dismiss hfocus
  · cases h

theorem asks_of_request? {k : Key} {r : Request} (h : v.request? k = some r) : v.Asks r := by
  unfold request? at h
  split at h
  · cases h
    exact .quit
  · split at h
    · next hfocus => exact asks_of_treeRequest? hfocus h
    · next hfocus => exact asks_of_menuRequest? hfocus h

section Keeps

variable {P : Viewer → Prop} (hstep : ∀ {v r}, P v → v.Asks r → P (v.perform r))

include hstep

theorem press_keeps (h : P v) (k : Key) : P (v.press k) := by
  unfold press
  split
  · next r hr => exact hstep h (asks_of_request? hr)
  · exact h

/-- What every request keeps, any number of keys keeps. -/
theorem pressAll_keeps (h : P v) (keys : List Key) : P (v.pressAll keys) := by
  induction keys generalizing v with
  | nil => exact h
  | cons k keys ih => exact ih (press_keeps hstep h k)

end Keeps

/-- A menu opens if there is anything to choose from. -/
theorem perform_offer (v : Viewer) (id : Nat) :
    (v.session.alternatives id = [] ∧
      v.perform (.offer id)
        = { v with menu := none, status := "No alternatives for this node" }) ∨
    (v.session.alternatives id ≠ [] ∧
      v.perform (.offer id)
        = { v with
            menu := some ⟨id, v.session.alternatives id⟩
            highlighted := 0
            focus := .alternatives }) := by
  cases h : v.session.alternatives id with
  | nil => exact .inl ⟨rfl, by simp [perform, offer, h]⟩
  | cons first rest => exact .inr ⟨by simp, by simp [perform, offer, h]⟩

/-! ## The session -/

/-- What a request is to the session. -/
def operation? (v : Viewer) : Request → Option Session.Operation
  | .choose id chosen => some (.select id chosen)
  | .restore id => some (.reset id)
  | .restoreAll => some .resetAll
  | .cycleLanguage => some (.setLanguage v.nextLanguage)
  | _ => none

theorem session_perform (v : Viewer) (r : Request) :
    (v.perform r).session = v.session.run (v.operation? r).toList := by
  cases r with
  | quit | highlight | dismiss | flip => rfl
  | moveTo id =>
    simp only [perform, moveTo]
    split <;> rfl
  | offer id =>
    rcases perform_offer v id with ⟨-, heq⟩ | ⟨-, heq⟩ <;> rw [heq] <;> rfl
  | choose id chosen =>
    have hrun : v.session.run (v.operation? (.choose id chosen)).toList
        = (v.session.attempt (v.session.select id chosen)).1 := rfl
    rw [hrun]
    simp only [perform, choose]
    cases v.session.select id chosen <;> rfl
  | restore id => rfl
  | restoreAll => rfl
  | cycleLanguage =>
    have hrun : v.session.run (v.operation? .cycleLanguage).toList
        = (v.session.attempt (v.session.setLanguage v.nextLanguage)).1 := rfl
    rw [hrun]
    simp only [perform, cycleLanguage]
    cases v.session.setLanguage v.nextLanguage <;> rfl

/-- Whether operations lead from the session on a category to that of a
viewer. -/
def ExploresFrom (g : Grammar) (category : String) (v : Viewer) : Prop :=
  ∃ operations, v.session = (Session.ofCategory g category).run operations

namespace ExploresFrom

variable {g : Grammar} {category : String}

theorem perform (h : ExploresFrom g category v) (r : Request) :
    ExploresFrom g category (v.perform r) := by
  obtain ⟨operations, hsession⟩ := h
  refine ⟨operations ++ (v.operation? r).toList, ?_⟩
  rw [session_perform, hsession]
  exact List.foldl_append.symm

theorem original (h : ExploresFrom g category v) : v.session.tree.original
    = DerivationTree.ofRose (Expansion.ofCategory g.abstractGrammar category) := by
  obtain ⟨operations, hsession⟩ := h
  rw [hsession, Session.original_run_ofCategory]

end ExploresFrom

end Viewer

end GrammarExplorer
