/-
What an outline shows.

A node has a line if every node above it is unfolded, and the lines stand in
the order of the places in the table (`lines_eq`). That is told from the links
between the nodes and the folds alone, so an edit neither shows nor hides a
line. As no node has two lines, "the next line" and "the line before" are the
two ways to read that two nodes stand next to one another (`next?_eq_some_iff`,
`previous?_eq_some_iff`).
-/
import GrammarExplorer.Proofs.Derivation.Ancestors
import GrammarExplorer.Proofs.Derivation.Edits
import GrammarExplorer.Viewer.Outline

namespace GrammarExplorer

namespace DerivationTree

theorem ancestors_original (t : DerivationTree) (id : Nat) :
    t.original.ancestors id = t.ancestors id := by
  induction id using Nat.strongRecOn with
  | ind id ih =>
    rw [ancestors, ancestors.eq_1 t, parent?_original]
    cases t.parent? id with
    | none => rfl
    | some p =>
      simp only
      split
      · next hlt => rw [ih p hlt]
      · rfl

end DerivationTree

namespace Folds

/-- A flip changes the fold of one node. -/
theorem isOpen_flip (f : Folds) (t : DerivationTree) (id a : Nat) :
    (f.flip id).isOpen t a = if a = id then !f.isOpen t a else f.isOpen t a := by
  have hflip : (f.flip id).flipped.contains a = (f.flipped.contains a != decide (a = id)) := by
    unfold flip
    by_cases ha : a = id
    · subst ha
      split <;> simp_all
    · split <;> simp [ha]
  rw [isOpen, hflip, isOpen]
  by_cases ha : a = id <;> simp [ha]

end Folds

namespace Outline

open DerivationTree
open Rose (placed)

variable {t : DerivationTree}

/-- Whether every node above a node is unfolded. -/
def isShown (t : DerivationTree) (isOpen : Nat → Bool) (id : Nat) : Bool :=
  (t.ancestors id).all isOpen

/-- The line of a node: as deep as there are nodes above it. -/
def lineAt (t : DerivationTree) (isOpen : Nat → Bool) (id : Nat) : OutlineLine :=
  lineOf isOpen (t.ancestors id).length
    (((t.node? id).map (Snapshot.entryOf id)).getD (Snapshot.emptyEntry id))

theorem id_lineAt (t : DerivationTree) (isOpen : Nat → Bool) (id : Nat) :
    (lineAt t isOpen id).id = id := by
  rw [lineAt]
  cases t.node? id <;> rfl

/-! ## The lines of a tree -/

theorem linesOf_eq (isOpen : Nat → Bool) (depth : Nat) (ss : List Snapshot) :
    linesOf isOpen depth ss = ss.flatMap (linesAt isOpen depth) := by
  induction ss with
  | nil => rfl
  | cons s ss ih => rw [linesOf, ih, List.flatMap_cons]

/-- Of a part whose root is shown, the lines are those of the nodes that are
shown. -/
theorem linesAt_of_holds {isOpen : Nat → Bool} {parent : Option Nat} {id : Nat} {r : Rose Role}
    (h : t.original.Holds parent id r) (hshown : isShown t isOpen id = true) :
    linesAt isOpen (t.ancestors id).length (Snapshot.ofNode t id)
      = ((List.range' id r.size).filter (isShown t isOpen)).map (lineAt t isOpen) := by
  induction r using Rose.induct generalizing parent id with
  | node role cs ih =>
    obtain ⟨n, hn, hsnapshot⟩ := Snapshot.ofNode_of_holds h
    have hline : lineOf isOpen (t.ancestors id).length (Snapshot.entryOf id n)
        = lineAt t isOpen id := by
      rw [lineAt, hn, Option.map_some, Option.getD_some]
    rw [hsnapshot, linesAt, hline, Rose.size, List.range'_succ, List.filter_cons_of_pos hshown,
      List.map_cons, linesOf_eq]
    congr 1
    split
    · next hopen =>
      -- The children are one deeper, and shown, as nothing new above them is folded.
      have below : ∀ a (ts : List (Rose Role)), (∀ p ∈ placed a ts, p ∈ placed (id + 1) cs) →
          ((placed a ts).map fun p => Snapshot.ofNode t p.1).flatMap
              (linesAt isOpen ((t.ancestors id).length + 1))
            = ((List.range' a (Rose.sizeAll ts)).filter (isShown t isOpen)).map
                (lineAt t isOpen) := by
        intro a ts hmem
        induction ts generalizing a with
        | nil => rfl
        | cons c ts ihts =>
          have hc : (a, c) ∈ placed (id + 1) cs := hmem _ (by simp [placed])
          have habove : t.ancestors a = id :: t.ancestors id := by
            rw [← ancestors_original t a, ← ancestors_original t id]
            exact h.ancestors_child hc
          have hchild := ih c (Rose.snd_mem_of_placed hc) (h.child hc) (by
            rw [isShown, habove, List.all_cons, Bool.and_eq_true]
            exact ⟨hopen, hshown⟩)
          rw [habove, List.length_cons] at hchild
          rw [placed, List.map_cons, List.flatMap_cons, hchild,
            ihts _ fun p hp => hmem p (by simp [placed, hp]), Rose.sizeAll,
            ← List.range'_append_1, List.filter_append, List.map_append]
      exact below _ _ fun _ hp => hp
    · next hfolded =>
      have hnone : (List.range' (id + 1) (Rose.sizeAll cs)).filter (isShown t isOpen) = [] := by
        refine List.filter_eq_nil_iff.2 fun x hx hall => hfolded ?_
        rw [List.mem_range'_1] at hx
        have hid : id ∈ t.ancestors x := by
          rw [← ancestors_original t x]
          exact h.mem_ancestors (by omega) (by rw [Rose.size]; omega)
        exact List.all_eq_true.1 hall id hid
      rw [hnone, List.map_nil]

section OfRose

variable {r : Rose Role} (h : t.original = ofRose r) (folds : Folds)

include h

/-- An outline has a line for each node that is shown, in the order of their
places. -/
theorem lines_eq : lines folds t
    = ((List.range t.size).filter (isShown t (folds.isOpen t))).map
        (lineAt t (folds.isOpen t)) := by
  have hholds : t.original.Holds none root r := h ▸ holds_ofRose r
  have habove : t.ancestors root = [] := by
    rw [← ancestors_original t root, ancestors_of_root hholds.parent?]
  have hshown : isShown t (folds.isOpen t) root = true := by
    rw [isShown, habove, List.all_nil]
  have hlines := linesAt_of_holds hholds hshown
  rw [habove, List.length_nil] at hlines
  rw [lines, Snapshot.ofTree, hlines, ← size_original, h, size_ofRose, List.range_eq_range', root]

theorem ids_lines :
    (lines folds t).map (·.id) = (List.range t.size).filter (isShown t (folds.isOpen t)) := by
  rw [lines_eq h, List.map_map]
  exact (List.map_congr_left fun id _ => id_lineAt t _ id).trans (List.map_id' _)

theorem mem_ids_lines {id : Nat} : id ∈ (lines folds t).map (·.id) ↔
    t.contains id = true ∧ ∀ a ∈ t.ancestors id, folds.isOpen t a = true := by
  rw [ids_lines h, List.mem_filter, List.mem_range, isShown, List.all_eq_true, contains,
    decide_eq_true_iff]

theorem nodup_ids_lines : ((lines folds t).map (·.id)).Nodup := by
  rw [ids_lines h]
  exact List.nodup_range.filter _

/-- The root comes first. -/
theorem head?_ids_lines : ((lines folds t).map (·.id)).head? = some root := by
  have hholds : t.original.Holds none root r := h ▸ holds_ofRose r
  obtain ⟨n, -, hsnapshot⟩ := Snapshot.ofNode_of_holds hholds
  rw [lines, Snapshot.ofTree, hsnapshot, linesAt]
  rfl

/-- An edit neither shows nor hides a node. -/
theorem ids_lines_original :
    (lines folds t).map (·.id) = (lines folds (ofRose r)).map (·.id) := by
  rw [ids_lines h, ids_lines (original_ofRose r), ← h, size_original]
  refine List.filter_congr fun id _ => ?_
  have hopen : folds.isOpen t.original = folds.isOpen t := by
    funext a
    rw [Folds.isOpen, Folds.isOpen, contains, contains, size_original]
  rw [isShown, isShown, ancestors_original, hopen]

end OfRose

/-! ## Neighbours -/

section Neighbours

variable {lines : List OutlineLine} {a b : Nat}

theorem pair_infix_iff {l : List Nat} :
    [a, b] <:+: l ↔ ∃ i, l[i]? = some a ∧ l[i + 1]? = some b := by
  rw [List.infix_iff_getElem?]
  constructor
  · rintro ⟨k, -, hget⟩
    exact ⟨k, by simpa using hget 0 (by simp), by simpa [Nat.add_comm] using hget 1 (by simp)⟩
  · rintro ⟨k, ha, hb⟩
    obtain ⟨hlt, -⟩ := List.getElem?_eq_some_iff.1 hb
    refine ⟨k, by simp; omega, fun i hi => ?_⟩
    match i, hi with
    | 0, _ => simpa using ha
    | 1, _ => simpa [Nat.add_comm] using hb

theorem indexOf?_eq_some_iff (hnodup : (lines.map (·.id)).Nodup) {i : Nat} :
    indexOf? lines a = some i ↔ (lines.map (·.id))[i]? = some a := by
  rw [indexOf?, List.findIdx?_eq_some_iff_getElem, List.getElem?_eq_some_iff]
  simp only [List.length_map, List.getElem_map, beq_iff_eq]
  constructor
  · rintro ⟨hi, ha, -⟩
    exact ⟨hi, ha⟩
  · rintro ⟨hi, ha⟩
    refine ⟨hi, ha, fun j hj hja => ?_⟩
    have hsame : (lines.map (·.id))[j]? = (lines.map (·.id))[i]? := by
      simp [List.getElem?_eq_getElem (Nat.lt_trans hj hi), List.getElem?_eq_getElem hi, ha, hja]
    have hlt : j < (lines.map (·.id)).length := by
      rw [List.length_map]
      omega
    exact Nat.ne_of_lt hj ((List.getElem?_inj hlt hnodup).1 hsame)

theorem next?_eq_some_iff (hnodup : (lines.map (·.id)).Nodup) :
    next? lines a = some b ↔ [a, b] <:+: lines.map (·.id) := by
  simp only [pair_infix_iff, next?, Option.bind_eq_bind, Option.bind_eq_some_iff,
    indexOf?_eq_some_iff hnodup, List.getElem?_map]

theorem previous?_eq_some_iff (hnodup : (lines.map (·.id)).Nodup) :
    previous? lines b = some a ↔ [a, b] <:+: lines.map (·.id) := by
  simp only [pair_infix_iff, previous?, Option.bind_eq_bind, Option.bind_eq_some_iff,
    indexOf?_eq_some_iff hnodup, Option.ite_none_left_eq_some, ← List.getElem?_map]
  constructor
  · rintro ⟨i, hb, hi, ha⟩
    exact ⟨i - 1, ha, by rwa [Nat.sub_add_cancel (Nat.pos_of_ne_zero hi)]⟩
  · rintro ⟨i, ha, hb⟩
    exact ⟨i + 1, hb, by omega, ha⟩

/-- There is a line below every line but the last. -/
theorem getLast?_of_next?_eq_none (hnodup : (lines.map (·.id)).Nodup)
    (hmem : a ∈ lines.map (·.id)) (h : next? lines a = none) :
    (lines.map (·.id)).getLast? = some a := by
  obtain ⟨i, hi⟩ := List.mem_iff_getElem?.1 hmem
  obtain ⟨hlt, -⟩ := List.getElem?_eq_some_iff.1 hi
  rw [next?, (indexOf?_eq_some_iff hnodup).2 hi] at h
  have hend : lines.length ≤ i + 1 := by simpa using h
  rw [List.length_map] at hlt
  rw [List.getLast?_eq_getElem?, List.length_map, ← hi]
  congr 1
  omega

/-- There is a line above every line but the first. -/
theorem head?_of_previous?_eq_none (hnodup : (lines.map (·.id)).Nodup)
    (hmem : a ∈ lines.map (·.id)) (h : previous? lines a = none) :
    (lines.map (·.id)).head? = some a := by
  obtain ⟨i, hi⟩ := List.mem_iff_getElem?.1 hmem
  obtain ⟨hlt, -⟩ := List.getElem?_eq_some_iff.1 hi
  rw [previous?, (indexOf?_eq_some_iff hnodup).2 hi] at h
  rw [List.length_map] at hlt
  by_cases hzero : i = 0
  · rw [List.head?_eq_getElem?, ← hi, hzero]
  · have hend : lines.length ≤ i - 1 := by simpa [hzero] using h
    omega

end Neighbours

end Outline

end GrammarExplorer
