/-
What stands under a key after values were laid over raw settings.

To lay a value over a key changes what stands under that key, however either is
capitalized, and under no other (`get?_layAt_of_ne`). So what a table leaves
under a key is what its last entry for the key says, or what was there before
if it has none (`get?_layAll`). The entries for the key must not be tables
themselves: those are merged further down.
-/
import GrammarExplorer.Settings.Layer

namespace GrammarExplorer.Settings.Value

open Text (lowercase)

variable {key other : String} {v new : Value}

def isTable : Value → Bool
  | table _ _ => true
  | _ => false

/-- What the entries say under a key, one after the other. -/
def under (key : String) (entries : List (String × Value)) : List Value :=
  (entries.filter (lowercase ·.1 == lowercase key)).map (·.2)

/-! ## A value in its place -/

/-- To replace the values under a key leaves each entry its key, so that the same
entry is found for a key as before. -/
theorem find?_replaced (entries : List (String × Value)) (key other : String) (new : Value) :
    (entries.map fun e => if e.1 == key then (key, new) else e).find? (·.1 == other) =
      (entries.find? (·.1 == other)).map fun e => if e.1 == key then (key, new) else e := by
  rw [List.find?_map]
  congr 2
  funext e
  by_cases h : e.1 = key <;> simp [h]

/-- A value that is put under a key is there, and the other keys stay. -/
theorem get?_put (v : Value) (key other : String) (new : Value) :
    (v.put key new).get? other =
      if lowercase key = lowercase other then some new else v.get? other := by
  unfold put get?
  rw [entries]
  cases hfound : v.entries.find? (·.1 == lowercase other) with
  | none =>
    by_cases heq : lowercase key = lowercase other
    · have hnew : ¬v.entries.any (·.1 == lowercase key) = true := by
        intro hany
        obtain ⟨e, he, hkey⟩ := List.any_eq_true.1 hany
        exact List.find?_eq_none.1 hfound e he (heq ▸ hkey)
      rw [if_neg hnew, List.find?_append, hfound]
      simp [heq]
    · split
      · rw [find?_replaced, hfound]
        rfl
      · rw [List.find?_append, hfound]
        simp [heq]
  | some e =>
    have hkey : e.1 = lowercase other := by simpa using List.find?_some hfound
    by_cases heq : lowercase key = lowercase other
    · have hthere : v.entries.any (·.1 == lowercase key) = true :=
        List.any_eq_true.2 ⟨e, List.mem_of_find?_eq_some hfound, by simp [hkey, heq]⟩
      rw [if_pos hthere, find?_replaced, hfound]
      simp [hkey, heq]
    · split
      · rw [find?_replaced, hfound]
        simp [hkey, Ne.symm heq]
      · rw [List.find?_append, hfound]
        simp [heq]

theorem get?_put_of_ne (h : lowercase key ≠ lowercase other) :
    (v.put key new).get? other = v.get? other := by
  rw [get?_put, if_neg h]

theorem get?_put_of_eq (h : lowercase key = lowercase other) :
    (v.put key new).get? other = some new := by
  rw [get?_put, if_pos h]

theorem get?_congr (h : lowercase key = lowercase other) : v.get? key = v.get? other := by
  rw [get?, get?, h]

/-! ## Entries laid over a value -/

theorem layAt_of_not_table (h : new.isTable = false) : v.layAt key new = v.put key new := by
  cases new with
  | table origin entries => cases h
  | scalar origin value => rw [layAt]; simp
  | list origin items => rw [layAt]; simp

theorem isTable_layAt : (v.layAt key new).isTable = true := by
  unfold layAt
  split <;> rfl

theorem get?_layAt_of_ne (h : lowercase key ≠ lowercase other) :
    (v.layAt key new).get? other = v.get? other := by
  unfold layAt
  split <;> exact get?_put_of_ne h

theorem isTable_layAll (hv : v.isTable = true) (entries : List (String × Value)) :
    (layAll v entries).isTable = true := by
  induction entries generalizing v with
  | nil => rwa [layAll]
  | cons e rest ih =>
    rw [layAll]
    exact ih isTable_layAt

/-- The last entry for a key counts. If there is none, what was there stays. -/
theorem get?_layAll {entries : List (String × Value)}
    (h : ∀ u ∈ under key entries, u.isTable = false) :
    (layAll v entries).get? key = (under key entries).getLast?.or (v.get? key) := by
  induction entries generalizing v with
  | nil => rw [layAll]; rfl
  | cons e rest ih =>
    rw [layAll]
    by_cases heq : lowercase e.1 = lowercase key
    · have hunder : under key (e :: rest) = e.2 :: under key rest := by simp [under, heq]
      rw [hunder, List.forall_mem_cons] at h
      rw [ih h.2, layAt_of_not_table h.1, get?_put_of_eq heq, hunder, List.getLast?_cons]
      cases (under key rest).getLast? <;> rfl
    · have hunder : under key (e :: rest) = under key rest := by simp [under, heq]
      rw [hunder] at h ⊢
      rw [ih h, get?_layAt_of_ne heq]

/-! ## A value laid over what a path leads to -/

section LaySteps

variable {name : String} {rest : List Step}

theorem isTable_laySteps : (laySteps new (.key name :: rest) v).isTable = true := by
  cases rest with
  | nil => exact isTable_layAt
  | cons step rest => rfl

theorem get?_laySteps_of_ne (h : lowercase name ≠ lowercase other) :
    (laySteps new (.key name :: rest) v).get? other = v.get? other := by
  cases rest with
  | nil => exact get?_layAt_of_ne h
  | cons step rest => exact get?_put_of_ne h

/-- What a path of more than one step leads to is changed inside. -/
theorem get?_laySteps_of_eq {step : Step} (h : lowercase name = lowercase other) :
    (laySteps new (.key name :: step :: rest) v).get? other =
      some (laySteps new (step :: rest) ((v.get? other).getD nil)) := by
  rw [laySteps, get?_put_of_eq h, get?_congr h]
  exact List.cons_ne_nil step rest

end LaySteps

/-- A table that is laid over a table is merged into it. -/
theorem get?_layAt_table {origin : Option String} {entries : List (String × Value)}
    (h : lowercase key = lowercase other) :
    (v.layAt key (.table origin entries)).get? other =
      some (layAll ((v.get? other).getD (.table none [])) entries) := by
  rw [layAt, get?_put_of_eq h, get?_congr h]

end GrammarExplorer.Settings.Value
