/-
What folding does to an outline.

A line is told by its node and by the folds of the nodes above it
(`Outline.mem_lines`), so a flip reaches the lines below its node, and no
others but for the sign on the node's own line. Flips of different nodes do
not get in each other's way: what counts is whether a node was flipped an odd
number of times (`Folds.isOpen_foldl_flip`). So what was unfolded below a node
that is folded is found again as it was.
-/
import GrammarExplorer.Proofs.Viewer.Cursor
import Mathlib.Data.Finset.SymmDiff

namespace GrammarExplorer

theorem DerivationTree.ancestors_eq {t : DerivationTree} {r : Rose Role}
    (h : t.original = ofRose r) (id : Nat) :
    t.ancestors id = (t.parent? id).elim [] fun p => p :: t.ancestors p := by
  rw [← ancestors_original, h, ancestors_ofRose, ← h, parent?_original]
  simp only [ancestors_original]

namespace Folds

/-- Whatever finite set of nodes is to be unfolded, there are folds for it. -/
theorem exists_isOpen_iff (t : DerivationTree) (unfolded : Finset Nat) :
    ∃ f : Folds, ∀ a, f.isOpen t a = true ↔ a ∈ unfolded := by
  refine ⟨⟨(symmDiff unfolded (Finset.range t.size)).toList⟩, fun a => ?_⟩
  rw [isOpen, DerivationTree.contains, bne_iff_ne, Ne, Bool.eq_iff_iff, decide_eq_true_iff,
    List.contains_iff_mem, Finset.mem_toList, Finset.mem_symmDiff, Finset.mem_range]
  tauto

/-- Of some flips, one after the other, those of one node count for that node. -/
theorem isOpen_foldl_flip (f : Folds) (t : DerivationTree) (ids : List Nat) (a : Nat) :
    (ids.foldl flip f).isOpen t a = (f.isOpen t a ^^ ids.count a % 2 == 1) := by
  induction ids generalizing f with
  | nil => simp
  | cons id ids ih =>
    rw [List.foldl_cons, ih, isOpen_flip, List.count_cons]
    by_cases ha : a = id
    · subst ha
      rcases Nat.mod_two_eq_zero_or_one (ids.count a) with heven | hodd
      · simp [heven, Nat.add_mod]
      · simp [hodd, Nat.add_mod]
    · simp [ha, Ne.symm ha]

theorem isOpen_flip_flip (f : Folds) (t : DerivationTree) (id : Nat) :
    ((f.flip id).flip id).isOpen t = f.isOpen t := by
  funext a
  rw [isOpen_flip, isOpen_flip]
  split
  · exact Bool.not_not _
  · rfl

end Folds

namespace Outline

open DerivationTree

section OfRose

variable {t : DerivationTree} {r : Rose Role} (h : t.original = ofRose r) {folds : Folds}

include h

theorem mem_lines {line : OutlineLine} : line ∈ lines folds t ↔ line.id < t.size ∧
    isShown t (folds.isOpen t) line.id = true ∧ line = lineAt t (folds.isOpen t) line.id := by
  rw [lines_eq h, List.mem_map]
  simp only [List.mem_filter, List.mem_range]
  constructor
  · rintro ⟨x, ⟨hx, hshown⟩, rfl⟩
    rw [id_lineAt]
    exact ⟨hx, hshown, rfl⟩
  · rintro ⟨hlt, hshown, hline⟩
    exact ⟨line.id, ⟨hlt, hshown⟩, hline.symm⟩

/-- A line shows its node as it is now. -/
theorem eq_of_mem_lines {line : OutlineLine} (hline : line ∈ lines folds t) :
    ∃ n, t.node? line.id = some n ∧ line = ⟨line.id, (t.ancestors line.id).length, n.label,
      folds.isOpen t line.id, n.hasChildren, n.kind, n.isEdited⟩ := by
  obtain ⟨hlt, -, heq⟩ := (mem_lines h).1 hline
  obtain ⟨n, hn⟩ := exists_node? hlt
  rw [lineAt, hn] at heq
  exact ⟨n, hn, heq⟩

theorem pairwise_ids_lines : ((lines folds t).map (·.id)).Pairwise (· < ·) := by
  rw [ids_lines h]
  exact List.pairwise_lt_range.filter _

end OfRose

section Flip

variable {t : DerivationTree} {folds : Folds} {id x : Nat}

/-- A flip neither shows nor hides what is not below its node. -/
theorem isShown_flip (hx : id ∉ t.ancestors x) :
    isShown t ((folds.flip id).isOpen t) x = isShown t (folds.isOpen t) x := by
  rw [isShown, isShown, Bool.eq_iff_iff, List.all_eq_true, List.all_eq_true]
  refine forall₂_congr fun a ha => ?_
  rw [Folds.isOpen_flip, if_neg (ne_of_mem_of_not_mem ha hx)]

/-- The sign on a line is changed by flips of its own node alone. -/
theorem lineAt_flip (hx : x ≠ id) :
    lineAt t ((folds.flip id).isOpen t) x = lineAt t (folds.isOpen t) x := by
  have hopen : (folds.flip id).isOpen t x = folds.isOpen t x := by
    rw [Folds.isOpen_flip, if_neg hx]
  rw [lineAt, lineAt]
  cases t.node? x <;> simp [lineOf, Snapshot.entryOf, Snapshot.emptyEntry, hopen]

end Flip

end Outline

namespace Viewer

open DerivationTree

theorem folds_foldl_flip (v : Viewer) (ids : List Nat) :
    ids.foldl flip v = { v with folds := ids.foldl Folds.flip v.folds } := by
  induction ids generalizing v with
  | nil => rfl
  | cons id ids ih => rw [List.foldl_cons, ih, List.foldl_cons, flip]

/-- For the outline it does not matter how what is unfolded came to be so. -/
theorem outline_congr {u v : Viewer} (hsession : u.session = v.session)
    (hopen : u.isOpen = v.isOpen) : u.outline = v.outline := by
  have hfolds : u.folds.isOpen u.session.tree = v.folds.isOpen v.session.tree := hopen
  rw [outline, outline, Outline.lines, Outline.lines, hfolds, hsession]

theorem outline_flip_flip (v : Viewer) (id : Nat) : ((v.flip id).flip id).outline = v.outline :=
  outline_congr rfl (v.folds.isOpen_flip_flip v.session.tree id)

/-- **Folding.** Of every viewer of a session in any state, whatever nodes are
unfolded in it: the nodes that have a line are those of the tree with nothing
but unfolded nodes above them, from smaller to greater ids. A line is as deep
as there are nodes above its node, and shows the node as it is now. A flip of a
node changes the fold of this node alone, shows and hides nothing but nodes
below it, and otherwise leaves every line but its own as it was; of more flips,
those of the same node cancel each other two by two, and after two of them the
outline is what it was. Any finite set of nodes can be what is unfolded, and the
nodes above a node are those found by going up from parent to parent. -/
theorem folding_run (g : Grammar) (category : String) (operations : List Session.Operation)
    (view : Viewer) :
    let v := { view with session := (Session.ofCategory g category).run operations }
    let t := v.session.tree
    (v.shownIds.Pairwise (· < ·) ∧ ∀ x, x ∈ v.shownIds ↔
      t.contains x = true ∧ ∀ a ∈ t.ancestors x, v.isOpen a = true) ∧
    (∀ line ∈ v.outline, ∃ n, t.node? line.id = some n ∧
      line = ⟨line.id, (t.ancestors line.id).length, n.label, v.isOpen line.id, n.hasChildren,
        n.kind, n.isEdited⟩) ∧
    (∀ id a, (v.flip id).isOpen a = if a = id then !v.isOpen a else v.isOpen a) ∧
    (∀ id x, id ∉ t.ancestors x → (x ∈ (v.flip id).shownIds ↔ x ∈ v.shownIds)) ∧
    (∀ id line, line.id ≠ id → id ∉ t.ancestors line.id →
      (line ∈ (v.flip id).outline ↔ line ∈ v.outline)) ∧
    (∀ (ids : List Nat) a, (ids.foldl flip v).isOpen a = (v.isOpen a ^^ ids.count a % 2 == 1)) ∧
    (∀ id, ((v.flip id).flip id).outline = v.outline) ∧
    (∀ unfolded : Finset Nat, ∃ folds, ∀ a,
      isOpen { v with folds } a = true ↔ a ∈ unfolded) ∧
    ∀ x, t.ancestors x = (t.parent? x).elim [] fun p => p :: t.ancestors p := by
  intro v t
  have horiginal : t.original = ofRose (Expansion.ofCategory g.abstractGrammar category) :=
    Session.original_run_ofCategory g category operations
  refine ⟨⟨Outline.pairwise_ids_lines horiginal, fun x => Outline.mem_ids_lines horiginal _⟩,
    fun line => Outline.eq_of_mem_lines horiginal, fun id => v.folds.isOpen_flip t id,
    fun id x hx => ?_, fun id line hne hid => ?_, fun ids a => ?_, outline_flip_flip v,
    Folds.exists_isOpen_iff t, ancestors_eq horiginal⟩
  · have hshown : Outline.isShown t ((v.folds.flip id).isOpen t) x
        = Outline.isShown t (v.folds.isOpen t) x := Outline.isShown_flip hx
    show x ∈ (Outline.lines (v.folds.flip id) t).map (·.id) ↔
      x ∈ (Outline.lines v.folds t).map (·.id)
    rw [Outline.ids_lines horiginal, Outline.ids_lines horiginal, List.mem_filter, List.mem_filter,
      hshown]
  · show line ∈ Outline.lines (v.folds.flip id) t ↔ line ∈ Outline.lines v.folds t
    rw [Outline.mem_lines horiginal, Outline.mem_lines horiginal, Outline.isShown_flip hid,
      Outline.lineAt_flip hne]
  · rw [folds_foldl_flip]
    exact v.folds.isOpen_foldl_flip t ids a

end Viewer

end GrammarExplorer
