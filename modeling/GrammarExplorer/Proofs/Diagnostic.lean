/-
Noting diagnostics.

What is noted is listed once, where it was found first (`noteAll_nil`): a list
only grows at its end, and noting something again changes nothing.
-/
import GrammarExplorer.Diagnostic
import GrammarExplorer.Proofs.FirstSeen
import Mathlib.Data.List.Nodup

namespace GrammarExplorer.Diagnostic

variable {known found : List Diagnostic} {d : Diagnostic}

theorem noteAll_append (known xs ys : List Diagnostic) :
    noteAll known (xs ++ ys) = noteAll (noteAll known xs) ys := List.foldl_append

theorem noteAll_nil (found : List Diagnostic) : noteAll [] found = found.eraseDups :=
  foldl_enlist found

theorem noteAll_concat (known found : List Diagnostic) (d : Diagnostic) :
    noteAll known (found ++ [d]) = note (noteAll known found) d := by
  rw [noteAll_append]
  rfl

theorem mem_note {e : Diagnostic} : e ∈ note known d ↔ e ∈ known ∨ e = d := by
  unfold note
  split
  · next hd =>
    refine ⟨.inl, ?_⟩
    rintro (he | rfl)
    · exact he
    · exact hd
  · rw [List.mem_append, List.mem_singleton]

theorem mem_noteAll : d ∈ noteAll known found ↔ d ∈ known ∨ d ∈ found := by
  induction found using List.reverseRecOn with
  | nil => simp [noteAll]
  | append_singleton found e ih =>
    rw [noteAll_concat, mem_note, ih, List.mem_append, List.mem_singleton, or_assoc]

theorem prefix_noteAll (known found : List Diagnostic) : known <+: noteAll known found := by
  induction found using List.reverseRecOn with
  | nil => exact List.prefix_rfl
  | append_singleton found e ih =>
    rw [noteAll_concat, note]
    split
    · exact ih
    · exact ih.trans (List.prefix_append _ _)

theorem nodup_noteAll (h : known.Nodup) (found : List Diagnostic) : (noteAll known found).Nodup := by
  induction found using List.reverseRecOn with
  | nil => exact h
  | append_singleton found e ih =>
    rw [noteAll_concat, note]
    split
    · exact ih
    · next he =>
      rw [← List.concat_eq_append]
      exact ih.concat he

/-- What is noted once already can be left out. -/
theorem noteAll_eraseDups (known found : List Diagnostic) :
    noteAll known found.eraseDups = noteAll known found := by
  induction found using List.reverseRecOn with
  | nil => rfl
  | append_singleton found e ih =>
    rw [eraseDups_concat, noteAll_concat]
    split
    · next he => rw [ih, note, if_pos (mem_noteAll.2 (.inr he))]
    · rw [noteAll_concat, ih]

/-- With nothing found that is known, all of it comes behind what is known. -/
theorem noteAll_of_disjoint (h : ∀ d ∈ found, d ∉ known) :
    noteAll known found = known ++ found.eraseDups := by
  induction found using List.reverseRecOn with
  | nil => simp [noteAll]
  | append_singleton found e ih =>
    have ih := ih fun d hd => h d (List.mem_append_left _ hd)
    have he : e ∉ known := h e (by simp)
    rw [noteAll_concat, ih, eraseDups_concat, note]
    simp only [List.mem_append, he, false_or, List.mem_eraseDups]
    split
    · rfl
    · rw [List.append_assoc]

end GrammarExplorer.Diagnostic
