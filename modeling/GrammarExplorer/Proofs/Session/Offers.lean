/-
Where an offer comes from, and what a choice of it does.

What a category node offers depends on its category, on the grammar and on
the mode (`alternatives_congr`). No operation changes the categories, so a
choice leaves all offers as they were.

In a language the offers are read off the productions, one offer for each
production that points into the table of functions (`getElem?_functionsFor`).
A choice looks the function up by its name and finds the first of that name,
also where it goes by the index of the names (`selectByIndex_eq`). Where a name
repeats, this need not be the function that the production points at.
-/
import GrammarExplorer.Proofs.Grammar.NameIndex
import GrammarExplorer.Proofs.Session.Alternatives
import GrammarExplorer.Proofs.Session.Integrity
import GrammarExplorer.Session.Indexed

namespace GrammarExplorer

namespace ConcreteGrammar

/-- The productions of a category that point into the table of functions. -/
def offered (g : ConcreteGrammar) (category : String) : List Nat :=
  (g.productionsFor category).filter fun fid => (g.functionAt? fid).isSome

/-- Every such production offers the name of the function it points at, in
its turn. -/
theorem getElem?_functionsFor (g : ConcreteGrammar) (category : String) (i : Nat) :
    (g.functionsFor category)[i]?
      = ((g.offered category)[i]?).bind fun fid => (g.functionAt? fid).map (·.name) := by
  rw [functionsFor, offered]
  induction g.productionsFor category generalizing i with
  | nil => rfl
  | cons fid fids ih =>
    cases hf : g.functionAt? fid with
    | none => simp [hf, ih]
    | some f =>
      cases i with
      | zero => simp [hf]
      | succ i => simp [hf, ih]

end ConcreteGrammar

namespace Session

open DerivationTree

/-! ## What offers depend on -/

/-- No operation changes what the tree was before all edits. -/
theorem original_apply (s : Session) (o : Operation) :
    (s.apply o).1.tree.original = s.tree.original := by
  rcases tree_apply s o with ⟨-, htree⟩ | ⟨id, label, -, -, htree⟩ | ⟨-, ids, htree⟩
  · rw [htree]
  · rw [htree, original_modify fun n => Node.original_relabel n label]
  · rw [htree, original_restoreAt]

/-- The category of a node is there before all edits. -/
theorem categoryAt?_eq (s : Session) (id : Nat) : s.categoryAt? id
    = (s.tree.original.node? id).bind fun n => if n.kind = .category then some n.name else none := by
  rw [categoryAt?, original, node?_mapNodes]
  cases s.tree.node? id <;> rfl

theorem alternatives_congr {s u : Session} (htree : u.tree.original = s.tree.original)
    (hgrammar : u.grammar = s.grammar) (hmode : u.mode = s.mode) (id : Nat) :
    u.alternatives id = s.alternatives id := by
  have hcategory : u.categoryAt? id = s.categoryAt? id := by
    rw [categoryAt?_eq, categoryAt?_eq, htree]
  rw [alternatives, alternatives, hcategory]
  simp only [functionsFor, hgrammar, hmode]

theorem alternatives_select {s next : Session} {id : Nat} {chosen : String}
    (h : s.select id chosen = .ok next) (i : Nat) : next.alternatives i = s.alternatives i := by
  have htree : next.tree.original = s.tree.original := by
    have happly : (s.apply (.select id chosen)).1 = next := by simp only [apply, attempt, h]
    rw [← happly, original_apply]
  obtain ⟨-, label, found, -, rfl⟩ := select_eq_ok h
  exact alternatives_congr htree rfl rfl i

/-- The node of a selection shows the label that was made for it. -/
theorem node?_select {s next : Session} {id : Nat} {chosen : String}
    (h : s.select id chosen = .ok next) : ∃ n label found, s.tree.node? id = some n ∧
      s.labelFor chosen = .ok (label, found) ∧ next.tree.node? id = some (n.relabel label) := by
  obtain ⟨hin, label, found, hlabel, rfl⟩ := select_eq_ok h
  obtain ⟨n, hn⟩ := Option.isSome_iff_exists.1 ((isSome_node? s.tree id).trans hin)
  exact ⟨n, label, found, hn, hlabel, by simp [hn]⟩

/-! ## The index of the names -/

/-- A label is made of the same function if it is looked up by the index, and
the look-up always has an answer. -/
theorem labelByIndex_eq (s : Session) (chosen : String) :
    s.labelByIndex chosen = some (s.labelFor chosen) := by
  unfold labelByIndex labelFor
  cases s.mode with
  | abstractNames => rfl
  | concrete grammarId =>
    cases hg : s.grammar.concrete? grammarId with
    | none => simp only [hg]
    | some g =>
      simp only [hg, g.functionByIndex_eq, Linearization.wordingOf?]
      cases g.function? chosen <;> rfl

theorem selectByIndex_eq (s : Session) (id : Nat) (chosen : String) :
    s.selectByIndex id chosen = some (s.select id chosen) := by
  rw [selectByIndex, select, labelByIndex_eq]
  split
  · cases s.labelFor chosen <;> rfl
  · rfl

end Session

/-! ## A grammar in which a name repeats -/

/-- A language with two functions of one name. The category `S` has
productions for both, the later function first, and one production that points
nowhere; the first function has one linearization that refers to an argument
it does not have and one that points nowhere. -/
def twins : ConcreteGrammar where
  id := "T"
  languageTag := "en"
  functions := [⟨"f", [0, 7]⟩, ⟨"f", [1]⟩, ⟨"a", [2]⟩]
  sequences := [[.category 0, .category 5], [.literal "twin"], [.literal "one", .token []]]
  productions := [("S", [9, 1, 0]), ("N", [2])]
  ranges := []
  totalFids := none

/-- Its grammar. Nothing produces the category `B`. -/
def twinGrammar : Grammar where
  abstractGrammar := ⟨"", "S", [⟨"f", "S", ["N", "B"]⟩, ⟨"a", "N", []⟩]⟩
  concretes := [twins]
  diagnostics := [.unknownSymbol "SymBIND", .productionWithoutFunction "S" "Coerce"]

/-- A session on that grammar, in its language. -/
def twinSession : Session := (Session.ofGrammar twinGrammar).run [.setLanguage (some "en")]

namespace Session

/-! ## Choosing what is offered -/

/-- **Every offer can be chosen.** In every state that operations lead to from
the session on a category of any grammar, whatever is offered for a node can
be chosen for it: the index of the names, made apart from the productions that
the offer comes from, finds a function for it and never points outside the table,
so the selection has an answer, and it is not a refusal. Afterwards this and
every other node offers what it offered before. -/
theorem choose_offered (g : Grammar) (category : String) (operations : List Operation) (id : Nat)
    (chosen : String) :
    let s := (ofCategory g category).run operations
    chosen ∈ s.alternatives id → ∃ next, s.selectByIndex id chosen = some (.ok next) ∧
      s.select id chosen = .ok next ∧ ∀ i, next.alternatives i = s.alternatives i := by
  intro s hoffer
  obtain ⟨next, hnext⟩ := exists_select hoffer
  have hindex : s.selectByIndex id chosen = some (.ok next) := by rw [selectByIndex_eq, hnext]
  exact ⟨next, hindex, hnext, alternatives_select hnext⟩

theorem choose_offered_twin : "f" ∈ twinSession.alternatives 0 ∧
    (nameIndex twins.functions)["f"]? = some 0 ∧
    ∃ next, twinSession.selectByIndex 0 "f" = some (.ok next) ∧
      twinSession.select 0 "f" = .ok next ∧
      ∀ i, next.alternatives i = twinSession.alternatives i := by
  have hoffer : "f" ∈ twinSession.alternatives 0 := by decide +kernel
  have hplace : (nameIndex twins.functions)["f"]? = some 0 := by
    rw [getElem?_nameIndex]
    rfl
  exact ⟨hoffer, hplace,
    choose_offered twinGrammar "S" [.setLanguage (some "en")] 0 "f" hoffer⟩

section LabelOfOffer

variable {s : Session} {grammarId : String} {g : ConcreteGrammar}

/-- In a language, a label is made by the function that the chosen name
stands for. -/
theorem labelFor_of_function? (hmode : s.mode = .concrete grammarId)
    (hg : s.grammar.concrete? grammarId = some g) {name : String} {f : ConcreteFunction}
    (hf : g.function? name = some f) :
    s.labelFor name = .ok
      (Linearization.label
        (Linearization.wording f g.sequences (s.argumentsOf name)).texts s.separator,
        (Linearization.wording f g.sequences (s.argumentsOf name)).diagnostics) := by
  simp only [labelFor, hmode, hg, Linearization.wordingOf?, hf, Option.map_some]

/-- **The label of an offer.** In a language, let the `i`-th offer for a
category node come from a production that points at the function `f` in the
place `fid` of the table. Then the offer is the name of `f`, and choosing it
shows the linearizations of the first function of that name, for the argument
categories that the abstract grammar gives it; this is also where the index of
the names points. This function is `f` unless one of the same name stands before
it. -/
theorem label_of_offer (hmode : s.mode = .concrete grammarId)
    (hg : s.grammar.concrete? grammarId = some g) {id : Nat} {category : String}
    (hid : s.categoryAt? id = some category) {i fid : Nat} {f : ConcreteFunction}
    (hoffer : (g.offered category)[i]? = some fid) (hf : g.functionAt? fid = some f) :
    (s.alternatives id)[i]? = some f.name ∧
      ∃ place first, g.IsFirst f.name place first ∧
        (nameIndex g.functions)[f.name]? = some place ∧ place ≤ fid ∧
        (g.IsFirst f.name fid f → first = f) ∧
        ∃ next n, s.select id f.name = .ok next ∧ next.tree.node? id = some n ∧
          n.label = Linearization.label
            (Linearization.wording first g.sequences (s.argumentsOf f.name)).texts s.separator := by
  have hoffers : s.alternatives id = g.functionsFor category := by
    simp only [alternatives, hid, functionsFor, hmode, hg]
  have hith : (s.alternatives id)[i]? = some f.name := by
    rw [hoffers, g.getElem?_functionsFor, hoffer, Option.bind_some, hf, Option.map_some]
  have hmem : f.name ∈ s.alternatives id := List.mem_of_getElem? hith
  obtain ⟨first, hfind⟩ := ConcreteGrammar.exists_function (hoffers ▸ hmem)
  obtain ⟨place, hfirst⟩ := ConcreteGrammar.function?_eq_some_iff.1 hfind
  obtain ⟨next, hnext⟩ := exists_select hmem
  obtain ⟨n, label, found, -, hlabel, hn⟩ := node?_select hnext
  rw [labelFor_of_function? hmode hg hfind] at hlabel
  cases hlabel
  exact ⟨hith, place, first, hfirst, ConcreteGrammar.nameIndex_eq_some_iff.2 ⟨first, hfirst⟩,
    hfirst.le hf rfl, fun h => (hfirst.unique h).2.symm,
    next, _, hnext, hn, rfl⟩

/-- The production that points at the later of two functions of one name, in
a session on the category `S`. -/
theorem label_of_offer_twin :
    (twinSession.mode = .concrete "T" ∧ twinSession.grammar.concrete? "T" = some twins ∧
      twinSession.categoryAt? 0 = some "S" ∧ (twins.offered "S")[0]? = some 1 ∧
      twins.functionAt? 1 = some ⟨"f", [1]⟩) ∧
    (twinSession.alternatives 0)[0]? = some "f" ∧
      ∃ place first, twins.IsFirst "f" place first ∧
        (nameIndex twins.functions)["f"]? = some place ∧ place ≤ 1 ∧
        (twins.IsFirst "f" 1 ⟨"f", [1]⟩ → first = ⟨"f", [1]⟩) ∧
        ∃ next n, twinSession.select 0 "f" = .ok next ∧ next.tree.node? 0 = some n ∧
          n.label = Linearization.label
            (Linearization.wording first twins.sequences (twinSession.argumentsOf "f")).texts
            twinSession.separator := by
  have hmode : twinSession.mode = .concrete "T" := by decide +kernel
  have hg : twinSession.grammar.concrete? "T" = some twins := rfl
  have hid : twinSession.categoryAt? 0 = some "S" := by decide +kernel
  have hoffer : (twins.offered "S")[0]? = some 1 := by decide
  exact ⟨⟨hmode, hg, hid, hoffer, rfl⟩, label_of_offer hmode hg hid hoffer rfl⟩

/-- It is not always the function that the production points at whose
linearizations are shown: with the later of two functions of one name, the
label is the one of the earlier. -/
theorem later_twin_not_shown :
    ¬ ∀ (s : Session) (grammarId : String) (g : ConcreteGrammar) (id : Nat) (category : String)
        (i fid : Nat) (f : ConcreteFunction) (name : String),
      s.mode = .concrete grammarId → s.grammar.concrete? grammarId = some g →
      s.categoryAt? id = some category → (g.offered category)[i]? = some fid →
      g.functionAt? fid = some f → (s.alternatives id)[i]? = some name →
      ∃ next n, s.select id name = .ok next ∧ next.tree.node? id = some n ∧
        n.label = Linearization.label
          (Linearization.wording f g.sequences (s.argumentsOf f.name)).texts s.separator := by
  intro h
  obtain ⟨next, n, hnext, hn, hlabel⟩ := h twinSession "T" twins 0 "S" 0 1 ⟨"f", [1]⟩ "f"
    (by decide +kernel) rfl (by decide +kernel) (by decide) rfl (by decide +kernel)
  -- The earlier function has a reference to an argument it lacks and an empty
  -- linearization; the later one would have given `twin`.
  have hshown : ((twinSession.select 0 "f").toOption.bind (·.tree.node? 0)).map (·.label)
      = some "N {5} | " := by decide +kernel
  rw [hnext] at hshown
  simp only [Except.toOption, Option.bind_some, hn, Option.map_some, hlabel] at hshown
  revert hshown
  decide +kernel

end LabelOfOffer

end Session

end GrammarExplorer
