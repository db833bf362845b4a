/-
What a list of declarations makes of a grammar.

A name keeps the place where it was declared first and has what was declared
for it last (`map_name_foldl_declare`, `mem_foldl_declare`). The index of the
names stays in step with the table over every declaration, although it is
written for new names only (`InStep.declare`): where a function takes the place
of an earlier one, the name stays where it was. So the functions can be looked
up either way; and as every function has one result, the lists of functions by
category take the table apart.
-/
import GrammarExplorer.Grammar.Indexed
import GrammarExplorer.Proofs.FirstSeen
import Mathlib.Data.List.Nodup

namespace GrammarExplorer

namespace AbstractGrammar

/-- Whether a function is what some declarations say last of its name. -/
def IsLast (declared : List AbstractFunction) (f : AbstractFunction) : Prop :=
  ∃ before after, declared = before ++ f :: after ∧ ∀ later ∈ after, later.name ≠ f.name

/-! ## Declaring functions -/

theorem any_name_eq_iff {fs : List AbstractFunction} {name : String} :
    fs.any (·.name == name) = true ↔ name ∈ fs.map (·.name) := by
  simp

theorem declare_of_mem {fs : List AbstractFunction} {f : AbstractFunction}
    (h : f.name ∈ fs.map (·.name)) :
    declare fs f = fs.map fun g => if g.name = f.name then f else g := by
  rw [declare, if_pos (any_name_eq_iff.2 h)]
  simp

theorem declare_of_notMem {fs : List AbstractFunction} {f : AbstractFunction}
    (h : f.name ∉ fs.map (·.name)) : declare fs f = fs ++ [f] := by
  rw [declare, if_neg (mt any_name_eq_iff.1 h)]

theorem map_name_declare (fs : List AbstractFunction) (f : AbstractFunction) :
    (declare fs f).map (·.name) = enlist (fs.map (·.name)) f.name := by
  by_cases h : f.name ∈ fs.map (·.name)
  · rw [declare_of_mem h, enlist, if_pos h, List.map_map]
    refine List.map_congr_left fun g _ => ?_
    simp only [Function.comp_apply]
    split
    · next hname => exact hname.symm
    · rfl
  · rw [declare_of_notMem h, enlist, if_neg h, List.map_append, List.map_singleton]

theorem mem_declare {fs : List AbstractFunction} {f g : AbstractFunction} :
    g ∈ declare fs f ↔ g = f ∨ (g ∈ fs ∧ g.name ≠ f.name) := by
  by_cases h : f.name ∈ fs.map (·.name)
  · obtain ⟨old, hold, hname⟩ := List.mem_map.1 h
    rw [declare_of_mem h, List.mem_map]
    constructor
    · rintro ⟨e, he, rfl⟩
      split
      · exact .inl rfl
      · next hne => exact .inr ⟨he, hne⟩
    · rintro (rfl | ⟨hg, hne⟩)
      · exact ⟨old, hold, if_pos hname⟩
      · exact ⟨g, hg, if_neg hne⟩
  · have hne : g ∈ fs → g.name ≠ f.name := fun hg hname => h (hname ▸ List.mem_map_of_mem hg)
    rw [declare_of_notMem h, List.mem_append, List.mem_singleton]
    grind

theorem map_name_foldl_declare (declared : List AbstractFunction) :
    (declared.foldl declare []).map (·.name) = (declared.map (·.name)).eraseDups := by
  induction declared using List.reverseRecOn with
  | nil => rfl
  | append_singleton declared f ih =>
    rw [List.foldl_append, List.foldl_cons, List.foldl_nil, map_name_declare, ih, List.map_append,
      List.map_singleton, eraseDups_concat, enlist]
    simp only [List.mem_eraseDups]

/-- Functions of different names are declared as they come. -/
theorem foldl_declare {known fs : List AbstractFunction} (h : ((known ++ fs).map (·.name)).Nodup) :
    fs.foldl declare known = known ++ fs := by
  induction fs generalizing known with
  | nil => rw [List.append_nil, List.foldl_nil]
  | cons f fs ih =>
    have hnew : f.name ∉ known.map (·.name) := by
      rw [List.map_append, List.map_cons, List.nodup_append] at h
      exact fun hknown => h.2.2 _ hknown f.name List.mem_cons_self rfl
    rw [List.foldl_cons, declare_of_notMem hnew, ih (by simpa using h), List.append_assoc,
      List.singleton_append]

theorem ofDeclarations_of_nodup {fs : List AbstractFunction} (h : (fs.map (·.name)).Nodup)
    (name startCategory : String) :
    ofDeclarations name startCategory fs = ⟨name, startCategory, fs⟩ := by
  rw [ofDeclarations, foldl_declare (by rwa [List.nil_append]), List.nil_append]

theorem isLast_concat {declared : List AbstractFunction} {f g : AbstractFunction} :
    IsLast (declared ++ [f]) g ↔ g = f ∨ (IsLast declared g ∧ g.name ≠ f.name) := by
  constructor
  · rintro ⟨before, after, heq, hlater⟩
    rcases List.eq_nil_or_concat' after with rfl | ⟨after, e, rfl⟩
    · obtain ⟨-, hlast⟩ := List.append_inj' heq rfl
      exact .inl (List.cons.inj hlast).1.symm
    · rw [← List.cons_append, ← List.append_assoc] at heq
      obtain ⟨hdeclared, hlast⟩ := List.append_inj' heq rfl
      obtain rfl : f = e := (List.cons.inj hlast).1
      refine .inr ⟨⟨before, after, hdeclared, fun later hl => hlater later (by simp [hl])⟩, ?_⟩
      exact (hlater f (by simp)).symm
  · rintro (rfl | ⟨⟨before, after, rfl, hlater⟩, hne⟩)
    · exact ⟨declared, [], rfl, by simp⟩
    · refine ⟨before, after ++ [f], by simp, fun later hl => ?_⟩
      rcases List.mem_append.1 hl with hl | hl
      · exact hlater later hl
      · rw [List.mem_singleton.1 hl]
        exact hne.symm

theorem mem_foldl_declare {declared : List AbstractFunction} {f : AbstractFunction} :
    f ∈ declared.foldl declare [] ↔ IsLast declared f := by
  induction declared using List.reverseRecOn with
  | nil => simp [IsLast]
  | append_singleton declared e ih =>
    rw [List.foldl_append, List.foldl_cons, List.foldl_nil, mem_declare, ih, isLast_concat]

end AbstractGrammar

/-! ## The index -/

namespace IndexedFunctions

variable {t : IndexedFunctions} {fs : List AbstractFunction}

/-- Whether a table has the given functions, and the index has their names,
each with the one place where it is. -/
structure InStep (t : IndexedFunctions) (fs : List AbstractFunction) : Prop where
  functions : t.functions = fs
  index_iff : ∀ (name : String) (place : Nat),
    t.index[name]? = some place ↔ (fs.map (·.name))[place]? = some name

namespace InStep

theorem empty : InStep .empty [] where
  functions := rfl
  index_iff := by simp [IndexedFunctions.empty]

theorem mem_of_index (h : InStep t fs) {name : String} {place : Nat}
    (hplace : t.index[name]? = some place) : name ∈ fs.map (·.name) :=
  List.mem_of_getElem? ((h.index_iff name place).1 hplace)

theorem notMem_of_index (h : InStep t fs) {name : String} (hnone : t.index[name]? = none) :
    name ∉ fs.map (·.name) := by
  intro hmem
  obtain ⟨place, hplace⟩ := List.mem_iff_getElem?.1 hmem
  rw [← h.index_iff, hnone] at hplace
  cases hplace

/-- Putting a function in the place that the index has for its name replaces
the function of that name. -/
theorem set_eq (h : InStep t fs) {f : AbstractFunction} {place : Nat}
    (hplace : t.index[f.name]? = some place) :
    fs.set place f = AbstractGrammar.declare fs f := by
  have hname := (h.index_iff f.name place).1 hplace
  rw [AbstractGrammar.declare_of_mem (h.mem_of_index hplace)]
  refine List.ext_getElem? fun i => ?_
  rw [List.getElem?_set, List.getElem?_map]
  split
  · next hi =>
    subst hi
    rw [List.getElem?_map] at hname
    obtain ⟨g, hg, hgname⟩ := Option.map_eq_some_iff.1 hname
    rw [if_pos (List.getElem?_eq_some_iff.1 hg).1, hg, Option.map_some, if_pos hgname]
  -- In any other place is a function of another name.
  · next hi =>
    cases hg : fs[i]? with
    | none => rfl
    | some g =>
      have hne : g.name ≠ f.name := by
        intro hgname
        have hother : (fs.map (·.name))[i]? = some f.name := by
          rw [List.getElem?_map, hg, Option.map_some, hgname]
        rw [← h.index_iff, hplace] at hother
        exact hi (Option.some.inj hother)
      rw [Option.map_some, if_neg hne]

/-- A declaration finds the place it looks for, and keeps table and index in
step. -/
theorem declare (h : InStep t fs) (f : AbstractFunction) :
    ∃ next, t.declare f = some next ∧ InStep next (AbstractGrammar.declare fs f) := by
  cases hplace : t.index[f.name]? with
  | some place =>
    have hmem := h.mem_of_index hplace
    have hlt : place < t.functions.length := by
      have hname := (h.index_iff f.name place).1 hplace
      rw [h.functions, ← List.length_map (·.name)]
      exact (List.getElem?_eq_some_iff.1 hname).1
    refine ⟨{ t with functions := t.functions.set place f }, ?_, ?_, fun name i => ?_⟩
    · simp [IndexedFunctions.declare, hplace, hlt]
    · rw [h.functions]
      exact h.set_eq hplace
    · rw [AbstractGrammar.map_name_declare, enlist, if_pos hmem]
      exact h.index_iff name i
  | none =>
    have hnew := h.notMem_of_index hplace
    refine ⟨⟨t.functions ++ [f], t.index.insert f.name t.functions.length⟩, ?_, ?_,
      fun name i => ?_⟩
    · simp [IndexedFunctions.declare, hplace]
    · rw [h.functions, AbstractGrammar.declare_of_notMem hnew]
    · rw [AbstractGrammar.map_name_declare, enlist, if_neg hnew, Std.HashMap.getElem?_insert,
        h.functions, ← List.length_map (·.name)]
      have hindex := h.index_iff name i
      grind

end InStep

/-- Declarations one after the other keep table and index in step. -/
theorem exists_ofDeclarations (declared : List AbstractFunction) :
    ∃ t, ofDeclarations declared = some t ∧
      InStep t (declared.foldl AbstractGrammar.declare []) := by
  induction declared using List.reverseRecOn with
  | nil => exact ⟨empty, rfl, .empty⟩
  | append_singleton declared f ih =>
    obtain ⟨t, ht, hstep⟩ := ih
    obtain ⟨next, hnext, hstep⟩ := hstep.declare f
    refine ⟨next, ?_, by rwa [List.foldl_append]⟩
    rw [ofDeclarations, List.foldlM_append, ← ofDeclarations, ht]
    simpa using hnext

/-- What is looked up in the index is the function of the name. -/
theorem InStep.function?_eq_some_iff (h : InStep t fs) {name : String} {f : AbstractFunction} :
    t.function? name = some f ↔ f ∈ fs ∧ f.name = name := by
  rw [function?, Option.bind_eq_some_iff, h.functions]
  constructor
  · rintro ⟨place, hplace, hf⟩
    rw [h.index_iff, List.getElem?_map, hf, Option.map_some, Option.some.injEq] at hplace
    exact ⟨List.mem_of_getElem? hf, hplace⟩
  · rintro ⟨hmem, rfl⟩
    obtain ⟨place, hplace⟩ := List.mem_iff_getElem?.1 hmem
    exact ⟨place, (h.index_iff _ _).2 (by rw [List.getElem?_map, hplace, Option.map_some]), hplace⟩

end IndexedFunctions

namespace AbstractGrammar

variable {g : AbstractGrammar}

/-! ## Looking up and listing -/

theorem function?_eq_some_iff (h : (g.functions.map (·.name)).Nodup) {name : String}
    {f : AbstractFunction} : g.function? name = some f ↔ f ∈ g.functions ∧ f.name = name := by
  rw [function?, List.find?_eq_some_iff_append]
  constructor
  · rintro ⟨hname, before, after, hfunctions, -⟩
    exact ⟨by simp [hfunctions], by simpa using hname⟩
  · rintro ⟨hmem, rfl⟩
    obtain ⟨before, after, hfunctions⟩ := List.append_of_mem hmem
    refine ⟨by simp, before, after, hfunctions, fun e he => ?_⟩
    rw [hfunctions, List.map_append, List.nodup_append] at h
    have hne : e.name ≠ f.name := h.2.2 e.name (List.mem_map_of_mem he) f.name (by simp)
    simpa using hne

theorem mem_functionsFor {category name : String} : name ∈ g.functionsFor category ↔
    ∃ f ∈ g.functions, f.name = name ∧ f.result = category := by
  simp only [functionsFor, producers, List.mem_map, List.mem_filter, beq_iff_eq]
  constructor
  · rintro ⟨f, ⟨hf, hresult⟩, hname⟩
    exact ⟨f, hf, hname, hresult⟩
  · rintro ⟨f, hf, hname, hresult⟩
    exact ⟨f, ⟨hf, hresult⟩, hname⟩

theorem functionsFor_sublist (g : AbstractGrammar) (category : String) :
    (g.functionsFor category).Sublist (g.functions.map (·.name)) :=
  List.filter_sublist.map _

theorem functionsFor_eq_nil_iff {category : String} :
    g.functionsFor category = [] ↔ g.hasFunctions category = false := by
  rw [functionsFor, List.map_eq_nil_iff, producers, List.filter_eq_nil_iff, hasFunctions,
    List.any_eq_false]

theorem mem_categories {category : String} : category ∈ g.categories ↔
    category = g.startCategory ∨
      ∃ f ∈ g.functions, category = f.result ∨ category ∈ f.arguments := by
  simp [categories]

/-- The functions of different categories have different names. -/
theorem eq_of_mem_functionsFor (h : (g.functions.map (·.name)).Nodup) {c d name : String}
    (hc : name ∈ g.functionsFor c) (hd : name ∈ g.functionsFor d) : c = d := by
  obtain ⟨e, he, hname, rfl⟩ := mem_functionsFor.1 hc
  obtain ⟨f, hf, hname', rfl⟩ := mem_functionsFor.1 hd
  rw [List.inj_on_of_nodup_map h he hf (hname.trans hname'.symm)]

/-- Taken category by category, the functions are all there, each once. -/
theorem perm_flatMap_functionsFor (h : (g.functions.map (·.name)).Nodup) :
    (g.categories.flatMap g.functionsFor).Perm (g.functions.map (·.name)) := by
  have hcategories : g.categories.Nodup := (firstSeen_eraseDups _).nodup
  have hnodup : (g.categories.flatMap g.functionsFor).Nodup := by
    refine List.nodup_flatMap.2 ⟨fun c _ => h.sublist (g.functionsFor_sublist c), ?_⟩
    refine hcategories.imp fun {c d} hne name hc hd => ?_
    exact hne (eq_of_mem_functionsFor h hc hd)
  refine (List.perm_ext_iff_of_nodup hnodup h).2 fun name => ?_
  rw [List.mem_flatMap]
  constructor
  · rintro ⟨c, -, hname⟩
    exact (g.functionsFor_sublist c).mem hname
  · intro hname
    obtain ⟨f, hf, rfl⟩ := List.mem_map.1 hname
    exact ⟨f.result, mem_categories.2 (.inr ⟨f, hf, .inl rfl⟩), mem_functionsFor.2 ⟨f, hf, rfl, rfl⟩⟩

/-- **What declarations make of a grammar.** Whatever is declared, however
often: the names of the functions are all different and stand in the order of
their first declarations, and the functions are those that are declared last
for their names. A name finds a function just if the grammar has it with this
name; an index that is written for new names only finds the same, and has for
each name the place where it is in the table, no declaration missing the table.
The categories are all different, the start category first; they are this one
and those that the functions have as results and arguments. The functions by
category, for all categories together, are the functions of the grammar, each
once, for each category in the order of the declarations, and there are some
just if the category has functions. -/
theorem functions_of_declarations (name startCategory : String)
    (declared : List AbstractFunction) :
    let g := ofDeclarations name startCategory declared
    let names := g.functions.map (·.name)
    (names.Nodup ∧ FirstSeen names (declared.map (·.name)) ∧
      ∀ f, f ∈ g.functions ↔ IsLast declared f) ∧
    ((∀ n f, g.function? n = some f ↔ f ∈ g.functions ∧ f.name = n) ∧
      ∃ t, IndexedFunctions.ofDeclarations declared = some t ∧ t.functions = g.functions ∧
        (∀ (n : String) (place : Nat), t.index[n]? = some place ↔ names[place]? = some n) ∧
        ∀ n, t.function? n = g.function? n) ∧
    (g.categories.Nodup ∧ g.categories.head? = some startCategory ∧
      ∀ c, c ∈ g.categories ↔
        c = startCategory ∨ ∃ f ∈ g.functions, c = f.result ∨ c ∈ f.arguments) ∧
    ((g.categories.flatMap g.functionsFor).Perm names ∧
      (∀ c, (g.functionsFor c).Sublist names) ∧
      (∀ c n, n ∈ g.functionsFor c ↔ ∃ f, g.function? n = some f ∧ f.result = c) ∧
      ∀ c, g.hasFunctions c = true ↔ g.functionsFor c ≠ []) := by
  intro g names
  have hseen : FirstSeen names (declared.map (·.name)) := by
    rw [show names = _ from map_name_foldl_declare declared]
    exact firstSeen_eraseDups _
  have hfind : ∀ n f, g.function? n = some f ↔ f ∈ g.functions ∧ f.name = n :=
    fun _ _ => function?_eq_some_iff hseen.nodup
  obtain ⟨t, ht, hstep⟩ := IndexedFunctions.exists_ofDeclarations declared
  refine ⟨⟨hseen.nodup, hseen, fun f => mem_foldl_declare⟩,
    ⟨hfind, t, ht, hstep.functions, hstep.index_iff, fun n => Option.ext fun f => ?_⟩,
    ⟨(firstSeen_eraseDups _).nodup, ?_, fun c => mem_categories⟩,
    ⟨perm_flatMap_functionsFor hseen.nodup, g.functionsFor_sublist, fun c n => ?_,
      fun c => ?_⟩⟩
  · rw [hstep.function?_eq_some_iff, hfind]
    rfl
  · rw [categories, List.eraseDups_cons, List.head?_cons]
    rfl
  · simp only [mem_functionsFor, hfind, and_assoc]
  · rw [Ne, functionsFor_eq_nil_iff, Bool.not_eq_false]

/-- A name that is declared again for another category. -/
example : (ofDeclarations "" "S" [⟨"A", "S", []⟩, ⟨"B", "S", []⟩, ⟨"A", "T", []⟩]).functions
    = [⟨"A", "T", []⟩, ⟨"B", "S", []⟩] := by decide +kernel

end AbstractGrammar

end GrammarExplorer
