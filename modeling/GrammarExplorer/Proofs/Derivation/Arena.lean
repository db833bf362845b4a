/-
How the table of a built tree is laid out.

Ids are given out in the order in which nodes are added, and that is the order
of the walk. So what can be reached from a node by going down has the ids from
its own on, without gaps (`Holds.reaches_iff`), and the children of a node come
in increasing order. No id leads out of the table: not the parent that a task
has for its node (`InOrder.parent_lt`), and not the ids that the walk finds,
since edits leave the links as they are.
-/
import GrammarExplorer.Proofs.Derivation.StackWalk
import GrammarExplorer.Proofs.Derivation.Steps
import GrammarExplorer.Proofs.Session.Undo
import Mathlib.Logic.Relation

namespace GrammarExplorer

open Rose (placed)

namespace DerivationTree

/-! ## Going down -/

/-- Whether one comes from a node to another by going down from child to
child, or not at all. -/
def Reaches (t : DerivationTree) : Nat → Nat → Prop :=
  Relation.ReflTransGen fun id child => child ∈ t.children id

section Holds

variable {t : DerivationTree} {parent : Option Nat} {id x : Nat} {r : Rose Role}

theorem Reaches.bounds (hx : t.Reaches id x) (h : t.Holds parent id r) :
    id ≤ x ∧ x < id + r.size := by
  induction hx using Relation.ReflTransGen.head_induction_on generalizing parent r with
  | refl =>
    have := r.size_pos
    omega
  | head hchild _ ih =>
    rw [h.children, List.mem_map] at hchild
    obtain ⟨p, hp, rfl⟩ := hchild
    have hrest := ih (h.child hp)
    have hplace := Rose.placed_bounds hp
    rw [Rose.size_eq]
    omega

theorem Holds.reaches (h : t.Holds parent id r) (hx : id ≤ x) (hx' : x < id + r.size) :
    t.Reaches id x := by
  induction r using Rose.induct generalizing parent id with
  | node role cs ih =>
    obtain rfl | ⟨p, hp, hpx, hpx'⟩ := Rose.eq_or_exists_placed _ hx hx'
    · exact .refl
    · have hchild : p.1 ∈ t.children id := by
        rw [h.children]
        exact List.mem_map_of_mem hp
      exact .head hchild (ih p.2 (Rose.snd_mem_of_placed hp) (h.child hp) hpx hpx')

/-- Below its root, and only there, lies the whole of a tree. -/
theorem Holds.reaches_iff (h : t.Holds parent id r) :
    t.Reaches id x ↔ id ≤ x ∧ x < id + r.size :=
  ⟨fun hx => hx.bounds h, fun hx => h.reaches hx.1 hx.2⟩

theorem Holds.pairwise_children (h : t.Holds parent id r) :
    (t.children id).Pairwise (· < ·) := by
  rw [h.children, List.pairwise_map]
  refine (Rose.pairwise_placed _ _).imp fun {p q} hpq => ?_
  have := p.2.size_pos
  omega

end Holds

theorem pairwise_children_ofRose (r : Rose Role) (id : Nat) :
    ((ofRose r).children id).Pairwise (· < ·) := by
  by_cases hc : (ofRose r).children id = []
  · rw [hc]
    exact .nil
  · obtain ⟨child, hchild⟩ := List.exists_mem_of_ne_nil _ hc
    obtain ⟨above, s, hs⟩ := exists_holds_of_mem_children hchild
    exact hs.pairwise_children

/-- Every node but the root is listed once, by a node before it. -/
theorem exists_parent_ofRose (r : Rose Role) {id : Nat} (hid : id < (ofRose r).size)
    (hroot : id ≠ root) : ∃ p < id, (ofRose r).parent? id = some p ∧
      ((ofRose r).children p).count id = 1 := by
  obtain ⟨above, s, hs, ⟨hzero, -⟩ | ⟨p, rfl, hmem⟩⟩ := exists_holds_ofRose r hid
  · exact absurd hzero hroot
  · have hnodup : ((ofRose r).children p).Nodup :=
      (pairwise_children_ofRose r p).imp fun hlt => Nat.ne_of_lt hlt
    exact ⟨p, (isProper_ofRose hmem).1, hs.parent?, List.count_eq_one_of_mem hnodup hmem⟩

/-- A walk only looks at the children. -/
theorem walkTurns_congr {t u : DerivationTree} (h : ∀ id, t.children id = u.children id)
    (turns : Nat) (stack : List Nat) : t.walkTurns turns stack = u.walkTurns turns stack := by
  induction turns generalizing stack with
  | zero => rfl
  | succ turns ih =>
    cases stack with
    | nil => rfl
    | cons id rest => rw [walkTurns, walkTurns, h, ih]

end DerivationTree

/-- The node below which a task is to add one. -/
def Task.parent? : Task → Option Nat
  | .category _ parent _ => parent
  | .function _ parent _ => some parent
  | .leave _ => none

/-- What a task adds a node below is there by now. -/
theorem Builder.InOrder.parent_lt {t : DerivationTree} : ∀ {path tasks}, InOrder t path tasks →
    ∀ task ∈ tasks, ∀ p ∈ task.parent?, p < t.size
  | _, [], _ => by simp
  | _, .category _ _ _ :: _, ⟨htakes, hrest⟩ =>
    List.forall_mem_cons.2 ⟨htakes.inside, hrest.parent_lt⟩
  | _, .function _ _ _ :: _, ⟨htakes, hrest⟩ =>
    List.forall_mem_cons.2 ⟨htakes.inside, hrest.parent_lt⟩
  | _, .leave _ :: _, ⟨_, _, hrest⟩ =>
    List.forall_mem_cons.2 ⟨by simp [Task.parent?], hrest.parent_lt⟩

namespace DerivationTree

/-- **The layout of a built tree.** For every grammar and category, the walk
with a stack passes the ids from first to last, and is then over. The first is
the root, which has no parent; any other node has a parent with a smaller id,
which lists it once. Children come in increasing order. What can be reached
from a node by going down are the ids of a range that starts with its own, and
a walk from there passes these. No id leads out of the table: not the parent
that a task has for a node at any time, and not those that the walk finds after
any edits. -/
theorem build_arena (g : AbstractGrammar) (category : String) :
    let t := (build g category).tree
    (t.walkTurns t.size [root] = (List.range t.size, []) ∧ t.walk = List.range t.size) ∧
    (0 < t.size ∧ t.parent? root = none ∧ ∀ id < t.size, id ≠ root →
      ∃ p < id, t.parent? id = some p ∧ (t.children p).count id = 1) ∧
    (∀ id child, child ∈ t.children id ↔ t.parent? child = some id) ∧
    (∀ id, (t.children id).Pairwise (· < ·)) ∧
    (∀ id < t.size, ∃ n, 0 < n ∧ id + n ≤ t.size ∧ (∀ x, t.Reaches id x ↔ id ≤ x ∧ x < id + n) ∧
      t.walkTurns n [id] = (List.range' id n, [])) ∧
    (∀ k b, Builder.after g k (Builder.start category) = some b →
      ∀ task ∈ b.tasks, ∀ p ∈ task.parent?, p < b.tree.size) ∧
    ∀ (grammar : Grammar) (operations : List Session.Operation), grammar.abstractGrammar = g →
      let u := ((Session.ofCategory grammar category).run operations).tree
      u.size = t.size ∧ u.walkTurns u.size [root] = (List.range u.size, []) ∧
      u.editedNodes = (List.range u.size).filter u.edited := by
  intro t
  have ht : t = ofRose (Expansion.ofCategory g category) := tree_build g category
  have hwalk : t.walkTurns t.size [root] = (List.range t.size, []) := by
    rw [ht, walkTurns_ofRose, walk_ofRose]
  refine ⟨⟨hwalk, ?_⟩, ⟨?_, ?_, ?_⟩, ?_, ?_, fun id hid => ?_, fun k b hb => ?_,
    fun grammar operations hgrammar => ?_⟩
  · rw [ht, walk_ofRose]
  · rw [ht, size_ofRose]
    exact Rose.size_pos _
  · rw [ht]
    exact (holds_ofRose _).parent?
  · rw [ht]
    exact fun id => exists_parent_ofRose _
  · rw [ht]
    exact mem_children_ofRose _
  · rw [ht]
    exact pairwise_children_ofRose _
  · rw [ht] at hid ⊢
    obtain ⟨above, s, hs, -⟩ := exists_holds_ofRose _ hid
    exact ⟨s.size, s.size_pos, hs.bound, fun x => hs.reaches_iff, hs.walkTurns⟩
  · exact (Builder.consistent_after hb).order.parent_lt
  · intro u
    subst hgrammar
    have hedited := Session.editedFrom_run_ofCategory grammar category operations
    have hsize : u.size = t.size := hedited.size
    refine ⟨hsize, ?_, ?_⟩
    · rw [walkTurns_congr hedited.children, hsize]
      exact hwalk
    · rw [editedNodes_eq, Session.walk_run_ofCategory]

end DerivationTree

end GrammarExplorer
