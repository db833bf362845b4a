/-
Lists with each entry once.

Where several parts of the program list what they meet and leave out what is
listed already, the result is `List.eraseDups`, whether it is computed at once
or entry by entry (`foldl_enlist`). What it is does not depend on how it is
computed: it has the same entries, and one comes before another just if it
does so where both occur first (`FirstSeen`); no other list is like that
(`FirstSeen.unique`).
-/
import Mathlib.Data.List.Basic
import Mathlib.Data.List.Induction

namespace GrammarExplorer

variable {α : Type} [DecidableEq α]

/-- Lists what is not listed yet. -/
def enlist (listed : List α) (x : α) : List α := if x ∈ listed then listed else listed ++ [x]

/-- Whether a list has the entries of another one, each once, in the order in
which they occur there first. -/
structure FirstSeen (listed all : List α) : Prop where
  mem_iff : ∀ x, x ∈ listed ↔ x ∈ all
  inOrder : listed.Pairwise fun x y => all.idxOf x < all.idxOf y

theorem eraseDups_concat (xs : List α) (x : α) :
    (xs ++ [x]).eraseDups = if x ∈ xs then xs.eraseDups else xs.eraseDups ++ [x] := by
  rw [List.eraseDups_append]
  by_cases hx : x ∈ xs
  · simp [List.removeAll, hx]
  · simp [List.removeAll, hx, List.eraseDups_cons]

/-- Listed entry by entry. -/
theorem foldl_enlist (xs : List α) : xs.foldl enlist [] = xs.eraseDups := by
  induction xs using List.reverseRecOn with
  | nil => rfl
  | append_singleton xs x ih =>
    rw [List.foldl_append, ih, eraseDups_concat, List.foldl_cons, List.foldl_nil, enlist]
    simp only [List.mem_eraseDups]

theorem firstSeen_eraseDups (xs : List α) : FirstSeen xs.eraseDups xs where
  mem_iff _ := List.mem_eraseDups
  inOrder := by
    induction xs using List.reverseRecOn with
    | nil => exact .nil
    | append_singleton xs x ih =>
      -- More entries behind the others move none of the first occurrences.
      have hlater : xs.eraseDups.Pairwise fun y z => (xs ++ [x]).idxOf y < (xs ++ [x]).idxOf z := by
        refine ih.imp_of_mem fun {y z} hy hz hyz => ?_
        rw [List.mem_eraseDups] at hy hz
        rwa [List.idxOf_append_of_mem hy, List.idxOf_append_of_mem hz]
      rw [eraseDups_concat]
      split
      · exact hlater
      · next hx =>
        refine List.pairwise_append.2 ⟨hlater, List.pairwise_singleton _ _, fun y hy z hz => ?_⟩
        rw [List.mem_eraseDups] at hy
        rw [List.mem_singleton.1 hz, List.idxOf_append_of_mem hy, List.idxOf_append, if_neg hx]
        exact Nat.lt_add_left _ (List.idxOf_lt_length_of_mem hy)

namespace FirstSeen

variable {listed other all : List α}

theorem nodup (h : FirstSeen listed all) : listed.Nodup :=
  h.inOrder.imp fun hlt heq => by
    rw [heq] at hlt
    exact Nat.lt_irrefl _ hlt

theorem unique (h : FirstSeen listed all) (h' : FirstSeen other all) : listed = other := by
  have hperm : listed.Perm other := (List.perm_ext_iff_of_nodup h.nodup h'.nodup).2 fun x => by
    rw [h.mem_iff, h'.mem_iff]
  refine hperm.eq_of_pairwise (fun x y _ _ hxy hyx => ?_) h.inOrder h'.inOrder
  exact absurd hxy (Nat.lt_asymm hyx)

theorem eq_eraseDups (h : FirstSeen listed all) : listed = all.eraseDups :=
  h.unique (firstSeen_eraseDups all)

end FirstSeen

theorem firstSeen_of_nodup {xs : List α} (h : xs.Nodup) : FirstSeen xs xs where
  mem_iff _ := Iff.rfl
  inOrder := by
    refine List.pairwise_iff_getElem.2 fun i j hi hj hij => ?_
    rwa [h.idxOf_getElem, h.idxOf_getElem]

/-- What occurs before can be left out. -/
theorem eraseDups_append_congr {xs ys zs : List α}
    (h : ys.filter (· ∉ xs) = zs.filter (· ∉ xs)) : (xs ++ ys).eraseDups = (xs ++ zs).eraseDups := by
  rw [List.eraseDups_append, List.eraseDups_append]
  have hremove : ys.removeAll xs = zs.removeAll xs := by
    simpa [List.removeAll] using h
  rw [hremove]

end GrammarExplorer
