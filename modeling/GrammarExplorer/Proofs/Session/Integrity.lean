/-
What holds of a session in every state.

The tree keeps its shape and its names, since every operation keeps what the
tree was before all edits (`editedFrom_run_ofCategory`). Apart from the tree
an operation can only note diagnostics and change the separator or the mode,
and the mode only to one that the grammar has (`settings_apply`); so there is
always a grammar for the mode, and a selection never fails for want of one.
-/
import GrammarExplorer.Proofs.Session.Undo

namespace GrammarExplorer

/-- All of a node but its labels. -/
def Node.frame (n : Node) : String × NodeKind × List Nat × Option Nat × Bool :=
  (n.name, n.kind, n.children, n.parent, n.shared)

namespace DerivationTree

/-- Whether a tree became another by new labels on one node. Nothing else of
the node changes, and nothing at all if there is no such node. -/
def RelabeledAt (id : Nat) (t u : DerivationTree) : Prop :=
  ∃ label firstLabel, u = t.modify id fun n => { n with label, firstLabel }

theorem relabeledAt_modify {f : Node → Node}
    (hf : ∀ n, f n = { n with label := (f n).label, firstLabel := (f n).firstLabel })
    (t : DerivationTree) (id : Nat) : RelabeledAt id t (t.modify id f) := by
  cases hn : t.node? id with
  | none =>
    refine ⟨"", none, ext_node? fun i => ?_⟩
    simp only [node?_modify]
    split
    · next hi => rw [← hi, hn, Option.map_none, Option.map_none]
    · rfl
  | some n =>
    refine ⟨(f n).label, (f n).firstLabel, ext_node? fun i => ?_⟩
    simp only [node?_modify]
    split
    · next hi => rw [← hi, hn, Option.map_some, Option.map_some, hf n]
    · rfl

theorem RelabeledAt.refl (t : DerivationTree) (id : Nat) : RelabeledAt id t t := by
  have hid : t.modify id (fun n => n) = t := by
    refine ext_node? fun i => ?_
    rw [node?_modify, Option.map_id', ite_self]
  have h := relabeledAt_modify (f := fun n => n) (fun _ => rfl) t id
  rwa [hid] at h

theorem map_frame_original (t : DerivationTree) (id : Nat) :
    (t.original.node? id).map Node.frame = (t.node? id).map Node.frame := by
  rw [original, node?_mapNodes, Option.map_map]
  rfl

/-- What a node remembers is its name, if nothing else was its label before
all edits. -/
theorem labels_of_original {t : DerivationTree} {r : Rose Role} (h : t.original = ofRose r)
    {id : Nat} {n : Node} (hn : t.node? id = some n) :
    n.firstLabel = some n.name ∨ (n.firstLabel = none ∧ n.label = n.name) := by
  have horiginal : (ofRose r).node? id = some n.original := by
    rw [← h, original, node?_mapNodes, hn, Option.map_some]
  have hlabel : n.firstLabel.getD n.label = n.name := (label_ofRose r horiginal).1
  cases hfirst : n.firstLabel with
  | none => exact .inr ⟨rfl, by rwa [hfirst] at hlabel⟩
  | some first => exact .inl (by rw [hfirst, Option.getD_some] at hlabel; rw [hlabel])

end DerivationTree

namespace Session

open DerivationTree

/-! ## Single operations -/

/-- The grammar stays, and the mode is the old one or one that the grammar
has. -/
theorem settings_apply (s : Session) (o : Operation) :
    (s.apply o).1.grammar = s.grammar ∧
      ((s.apply o).1.mode = s.mode ∨ s.admits (s.apply o).1.mode = true) := by
  rcases apply_cases s o with ⟨-, h⟩ | ⟨id, chosen, label, found, -, -, -, -, h⟩ | ⟨-, ids, h⟩ |
    ⟨-, mode, hadmits, h⟩ | ⟨-, separator, h⟩ <;> rw [h]
  · exact ⟨rfl, .inl rfl⟩
  · exact ⟨rfl, .inl rfl⟩
  · exact ⟨rfl, .inl rfl⟩
  · exact ⟨rfl, .inr hadmits⟩
  · exact ⟨rfl, .inl rfl⟩

/-- A selection, refused or not, changes the labels of its node alone. -/
theorem relabeledAt_select (s : Session) (id : Nat) (chosen : String) :
    RelabeledAt id s.tree (s.apply (.select id chosen)).1.tree := by
  simp only [apply]
  cases h : s.select id chosen with
  | error e => exact .refl s.tree id
  | ok next =>
    obtain ⟨-, label, found, -, rfl⟩ := select_eq_ok h
    exact relabeledAt_modify (fun _ => rfl) s.tree id

theorem relabeledAt_reset (s : Session) (id : Nat) :
    RelabeledAt id s.tree (s.apply (.reset id)).1.tree := by
  simp only [apply, reset_eq]
  exact relabeledAt_modify (fun _ => rfl) s.tree id

/-! ## Modes -/

/-- Which modes there are is for the grammar to say. -/
theorem admits_iff {s : Session} {mode : DisplayMode} : s.admits mode = true ↔
    mode = .abstractNames ∨ ∃ c ∈ s.grammar.concretes, mode = .concrete c.id := by
  cases mode with
  | abstractNames => simp [admits]
  | concrete id =>
    rw [admits, Grammar.concrete?, List.find?_isSome]
    simp [eq_comm (a := id)]

theorem admits_of_grammar {s u : Session} (h : u.grammar = s.grammar) (mode : DisplayMode) :
    u.admits mode = s.admits mode := by
  cases mode <;> simp only [admits, h]

theorem grammar_run (s : Session) (os : List Operation) : (s.run os).grammar = s.grammar := by
  induction os generalizing s with
  | nil => rfl
  | cons o os ih => exact (ih _).trans (settings_apply s o).1

theorem admits_run {s : Session} (h : s.admits s.mode = true) (os : List Operation) :
    (s.run os).admits (s.run os).mode = true := by
  induction os generalizing s with
  | nil => exact h
  | cons o os ih =>
    obtain ⟨hgrammar, hmode⟩ := settings_apply s o
    refine ih ?_
    rw [admits_of_grammar hgrammar]
    rcases hmode with hmode | hmode
    · rwa [hmode]
    · exact hmode

/-- With a grammar for the mode, there is a label or no such function. -/
theorem labelFor_ne_noConcreteGrammar {s : Session} (h : s.admits s.mode = true)
    (chosen wanted : String) : s.labelFor chosen ≠ .error (.noConcreteGrammar wanted) := by
  unfold labelFor
  split
  · simp
  · next id hmode =>
    rw [hmode, admits] at h
    obtain ⟨c, hc⟩ := Option.isSome_iff_exists.1 h
    simp only [hc]
    split <;> simp

theorem select_ne_noConcreteGrammar {s : Session} (h : s.admits s.mode = true) (id : Nat)
    (chosen wanted : String) : s.select id chosen ≠ .error (.noConcreteGrammar wanted) := by
  unfold select
  split
  · have hlabel := labelFor_ne_noConcreteGrammar h chosen wanted
    split
    · next e he =>
      rw [he] at hlabel
      simpa using hlabel
    · simp
  · simp

/-! ## Every state -/

section OfCategory

variable (g : Grammar) (category : String) (operations : List Operation)

theorem original_run_ofCategory :
    ((ofCategory g category).run operations).tree.original
      = ofRose (Expansion.ofCategory g.abstractGrammar category) :=
  (editedFrom_run_ofCategory g category operations).original.trans (tree_ofCategory g category)

theorem admits_run_ofCategory : ((ofCategory g category).run operations).admits
    ((ofCategory g category).run operations).mode = true :=
  admits_run rfl operations

end OfCategory

/-- **Integrity of a session.** In every state that operations, refused or
not, lead to from the session on a category: the nodes are those of the
built tree but for their labels. What a node remembers is its own name, and
a node that remembers nothing shows its name. A selection or a reset changes
the labels of its node at most, and a change of mode, language or separator
changes no node. The mode is that of the abstract names or names a concrete
grammar of the document, so no selection is refused for want of one. -/
theorem integrity_run (g : Grammar) (category : String) (operations : List Operation) :
    let built := (DerivationTree.build g.abstractGrammar category).tree
    let s := (ofCategory g category).run operations
    (s.tree.size = built.size ∧
      ∀ id, (s.tree.node? id).map Node.frame = (built.node? id).map Node.frame) ∧
    (∀ id n, s.tree.node? id = some n →
      n.firstLabel = some n.name ∨ (n.firstLabel = none ∧ n.label = n.name)) ∧
    ((∀ id chosen, RelabeledAt id s.tree (s.apply (.select id chosen)).1.tree) ∧
      (∀ id, RelabeledAt id s.tree (s.apply (.reset id)).1.tree) ∧
      (∀ mode, (s.apply (.setMode mode)).1.tree = s.tree) ∧
      (∀ language, (s.apply (.setLanguage language)).1.tree = s.tree) ∧
      (∀ separator, (s.apply (.setSeparator separator)).1.tree = s.tree)) ∧
    ((s.mode = .abstractNames ∨ ∃ c ∈ g.concretes, s.mode = .concrete c.id) ∧
      ∀ id chosen wanted, s.select id chosen ≠ .error (.noConcreteGrammar wanted)) := by
  intro built s
  have hbuilt : built = ofRose (Expansion.ofCategory g.abstractGrammar category) :=
    tree_build g.abstractGrammar category
  have horiginal : s.tree.original = ofRose (Expansion.ofCategory g.abstractGrammar category) :=
    original_run_ofCategory g category operations
  have hadmits : s.admits s.mode = true := admits_run_ofCategory g category operations
  have hgrammar : s.grammar = g := grammar_run _ operations
  refine ⟨⟨?_, fun id => ?_⟩, fun id n hn => labels_of_original horiginal hn,
    ⟨relabeledAt_select s, relabeledAt_reset s, fun mode => tree_attempt fun _ => tree_setMode,
      fun language => tree_attempt fun _ => tree_setLanguage, fun separator => rfl⟩,
    ?_, select_ne_noConcreteGrammar hadmits⟩
  · rw [hbuilt, ← horiginal, size_original]
  · rw [hbuilt, ← horiginal, map_frame_original]
  · rw [← hgrammar]
    exact admits_iff.1 hadmits

end Session

end GrammarExplorer
