/-
What the index of the names finds.

With every function that is entered, the index has the names of the functions so
far, each with its first place (`getElem?_nameIndex`). So it never points
outside the table, and what it finds for a name is the first function of that
name (`functionByIndex_eq`), wherever the productions point.
-/
import GrammarExplorer.Grammar.NameIndex
import Mathlib.Data.List.Induction
import Mathlib.Tactic.ByContra

namespace GrammarExplorer

/-! ## Entering names -/

/-- The last function of a table is entered in the index of those before it. -/
theorem nameIndex_concat (functions : List ConcreteFunction) (f : ConcreteFunction) :
    nameIndex (functions ++ [f]) = (nameIndex functions).insertIfNew f.name functions.length := by
  simp [nameIndex, List.zipIdx_append]

/-- The index has the first place of each name. -/
theorem getElem?_nameIndex (functions : List ConcreteFunction) (name : String) :
    (nameIndex functions)[name]? = functions.findIdx? (·.name == name) := by
  induction functions using List.reverseRecOn with
  | nil => simp [nameIndex]
  | append_singleton functions f ih =>
    rw [nameIndex_concat, Std.HashMap.getElem?_insertIfNew, List.findIdx?_append, ← ih]
    by_cases hname : f.name = name
    · subst hname
      -- A name that is there already keeps its place.
      cases hplace : (nameIndex functions)[f.name]? with
      | none => simp [Std.HashMap.mem_iff_isSome_getElem?, hplace]
      | some place => simp [Std.HashMap.mem_iff_isSome_getElem?, hplace]
    · simp [hname]

namespace ConcreteGrammar

variable {g : ConcreteGrammar} {name : String} {place : Nat} {f : ConcreteFunction}

/-! ## The first function of a name -/

/-- The function in a place of the table is the first one of a name. -/
structure IsFirst (g : ConcreteGrammar) (name : String) (place : Nat) (f : ConcreteFunction) :
    Prop where
  at_place : g.functions[place]? = some f
  name_eq : f.name = name
  before : ∀ i < place, ∀ e, g.functions[i]? = some e → e.name ≠ name

theorem IsFirst.le (h : g.IsFirst name place f) {i : Nat} {e : ConcreteFunction}
    (he : g.functions[i]? = some e) (hname : e.name = name) : place ≤ i := by
  by_contra hlt
  exact h.before i (by omega) e he hname

theorem IsFirst.unique (h : g.IsFirst name place f) {i : Nat} {e : ConcreteFunction}
    (he : g.IsFirst name i e) : i = place ∧ e = f := by
  have hi : i = place := Nat.le_antisymm (he.le h.at_place h.name_eq) (h.le he.at_place he.name_eq)
  subst hi
  exact ⟨rfl, Option.some.inj (he.at_place.symm.trans h.at_place)⟩

theorem isFirst_iff : g.IsFirst name place f ↔
    g.functions.findIdx? (·.name == name) = some place ∧ g.functions[place]? = some f := by
  rw [List.findIdx?_eq_some_iff_getElem]
  constructor
  · rintro ⟨hplace, hname, hbefore⟩
    obtain ⟨hlt, heq⟩ := List.getElem?_eq_some_iff.1 hplace
    refine ⟨⟨hlt, by simpa [heq] using hname, fun i hi => ?_⟩, hplace⟩
    simpa using hbefore i hi _ (List.getElem?_eq_getElem (by omega))
  · rintro ⟨⟨hlt, hname, hbefore⟩, hplace⟩
    obtain ⟨_, rfl⟩ := List.getElem?_eq_some_iff.1 hplace
    refine ⟨hplace, by simpa using hname, fun i hi e he => ?_⟩
    obtain ⟨_, rfl⟩ := List.getElem?_eq_some_iff.1 he
    simpa using hbefore i hi

/-- A name stands for the first function of that name. -/
theorem function?_eq_some_iff : g.function? name = some f ↔ ∃ place, g.IsFirst name place f := by
  simp only [function?, List.find?_eq_bind_findIdx?_getElem?, Option.bind_eq_some_iff, isFirst_iff]

/-- The index has for a name the place of the first function of that name. -/
theorem nameIndex_eq_some_iff :
    (nameIndex g.functions)[name]? = some place ↔ ∃ f, g.IsFirst name place f := by
  simp only [getElem?_nameIndex, isFirst_iff, exists_and_left, iff_self_and]
  intro hplace
  obtain ⟨hlt, -⟩ := List.findIdx?_eq_some_iff_getElem.1 hplace
  exact ⟨_, List.getElem?_eq_getElem hlt⟩

/-- The index never points outside the table, and a look-up by it finds the
function that the name stands for. -/
theorem functionByIndex_eq (g : ConcreteGrammar) (name : String) :
    g.functionByIndex name = some (g.function? name) := by
  unfold functionByIndex
  split
  · next hnone =>
    have hno : g.function? name = none := by
      refine Option.eq_none_iff_forall_ne_some.2 fun f hf => ?_
      obtain ⟨place, hfirst⟩ := function?_eq_some_iff.1 hf
      rw [nameIndex_eq_some_iff.2 ⟨f, hfirst⟩] at hnone
      cases hnone
    rw [hno]
  · next place hplace =>
    obtain ⟨f, hfirst⟩ := nameIndex_eq_some_iff.1 hplace
    rw [hfirst.at_place, function?_eq_some_iff.2 ⟨place, hfirst⟩, Option.map_some]

end ConcreteGrammar

end GrammarExplorer
