/-
The nodes above a node, and why some categories are left as leaves.

The machine keeps a path, which later siblings change again and again; what
is left of it in the table are the links to the parents. Going up along them
from a category node one passes the categories that were on the path when the
node was added. So every category node has its own expansion below it, with
the categories above it under way (`Holds.alternates`), and whether it is a
leaf can be told from the table alone.
-/
import GrammarExplorer.Proofs.Derivation.Reachability

namespace GrammarExplorer

theorem Rose.placed_eq_nil {α : Type} {id : Nat} {cs : List (Rose α)} :
    placed id cs = [] ↔ cs = [] := by
  cases cs <;> simp [placed]

/-- What is expanded has something below it: a category with functions has at
least one of them. -/
theorem Expansion.children_expand_ne_nil {g : AbstractGrammar} {visiting : List String}
    {category : String} {shared : Bool} :
    (expand g visiting category shared).children ≠ [] ↔
      shared = false ∧ category ∉ visiting ∧ g.hasFunctions category = true := by
  constructor
  · intro hne
    by_contra hleaf
    rw [expand_leaf hleaf] at hne
    exact hne rfl
  · rintro ⟨rfl, hv, hf⟩
    rw [Builder.expand_expanded hv hf, Rose.children, Builder.functionTrees, Ne, List.map_eq_nil_iff]
    exact Builder.choices_ne_nil hf

namespace DerivationTree

open Rose (placed)
open Expansion (expand)

/-! ## Going up -/

/-- The nodes above a node, the nearest first. A link that does not lead to
an earlier place is not followed; no built tree has one. -/
def ancestors (t : DerivationTree) (id : Nat) : List Nat :=
  match t.parent? id with
  | some p => if p < id then p :: ancestors t p else []
  | none => []
termination_by id

/-- The names of the categories above a node, the nearest first. -/
def categoriesAbove (t : DerivationTree) (id : Nat) : List String :=
  (t.ancestors id).filterMap fun a => ((t.node? a).map roleOf).bind categoryName?

def kind? (t : DerivationTree) (id : Nat) : Option NodeKind := (t.node? id).map (·.kind)

/-- The kind of the node above a node. -/
def parentKind? (t : DerivationTree) (id : Nat) : Option NodeKind := (t.parent? id).bind t.kind?

section Ancestors

variable {t : DerivationTree} {id p : Nat}

theorem ancestors_of_root (h : t.parent? id = none) : t.ancestors id = [] := by
  rw [ancestors, h]

theorem ancestors_of_parent (h : t.parent? id = some p) (hlt : p < id) :
    t.ancestors id = p :: t.ancestors p := by
  rw [ancestors, h]
  exact if_pos hlt

theorem lt_of_mem_ancestors {a : Nat} (h : a ∈ t.ancestors id) : a < id := by
  induction id using Nat.strongRecOn with
  | ind id ih =>
    rw [ancestors] at h
    split at h
    · next p hp =>
      split at h
      · next hlt =>
        rcases List.mem_cons.1 h with rfl | h
        · exact hlt
        · exact Nat.lt_trans (ih p hlt h) hlt
      · simp at h
    · simp at h

theorem mem_ancestors_trans {a b : Nat} (hab : a ∈ t.ancestors b) (hb : b ∈ t.ancestors id) :
    a ∈ t.ancestors id := by
  induction id using Nat.strongRecOn with
  | ind id ih =>
    rw [ancestors] at hb ⊢
    split at hb
    · split at hb
      · next p _ hlt =>
        rw [if_pos hlt]
        rcases List.mem_cons.1 hb with rfl | hb
        · exact List.mem_cons_of_mem _ hab
        · exact List.mem_cons_of_mem _ (ih p hlt hb)
      · simp at hb
    · simp at hb

theorem mem_categoriesAbove {name : String} : name ∈ t.categoriesAbove id ↔
    ∃ a ∈ t.ancestors id, ∃ m, t.node? a = some m ∧ m.kind = .category ∧ m.name = name := by
  simp only [categoriesAbove, List.mem_filterMap, Option.bind_eq_some_iff, Option.map_eq_some_iff,
    categoryName?, Option.ite_none_right_eq_some, Option.some.injEq, exists_exists_and_eq_and]
  rfl

end Ancestors

section Holds

variable {t : DerivationTree} {parent : Option Nat} {id : Nat} {r : Rose Role}

theorem Holds.kind? (h : t.Holds parent id r) : t.kind? id = some r.label.kind := by
  rw [DerivationTree.kind?, h.node?]
  rfl

theorem Holds.ancestors_child (h : t.Holds parent id r) {p : Nat × Rose Role}
    (hp : p ∈ placed (id + 1) r.children) : t.ancestors p.1 = id :: t.ancestors id :=
  ancestors_of_parent (h.child hp).parent? (Rose.placed_bounds hp).1

theorem Holds.parentKind?_child (h : t.Holds parent id r) {p : Nat × Rose Role}
    (hp : p ∈ placed (id + 1) r.children) : t.parentKind? p.1 = some r.label.kind := by
  rw [parentKind?, (h.child hp).parent?, Option.bind_some, h.kind?]

theorem Holds.categoriesAbove_child (h : t.Holds parent id r) {p : Nat × Rose Role}
    (hp : p ∈ placed (id + 1) r.children) :
    t.categoriesAbove p.1 = (categoryName? r.label).toList ++ t.categoriesAbove id := by
  rw [categoriesAbove, h.ancestors_child hp, List.filterMap_cons, h.node?]
  cases hname : categoryName? r.label with
  | none => simp [roleOf, row, hname, categoriesAbove]
  | some name => simp [roleOf, row, hname, categoriesAbove]

/-- The whole of a tree is below its root. -/
theorem Holds.mem_ancestors (h : t.Holds parent id r) {x : Nat} (hx : id < x)
    (hx' : x < id + r.size) : id ∈ t.ancestors x := by
  induction r using Rose.induct generalizing parent id with
  | node role cs ih =>
    obtain rfl | ⟨p, hp, hpx, hpx'⟩ := Rose.eq_or_exists_placed _ (Nat.le_of_lt hx) hx'
    · exact absurd hx (Nat.lt_irrefl _)
    have hid : id ∈ t.ancestors p.1 := by
      rw [h.ancestors_child hp]
      exact List.mem_cons_self
    rcases Nat.eq_or_lt_of_le hpx with rfl | hlt
    · exact hid
    · exact mem_ancestors_trans hid (ih p.2 (Rose.snd_mem_of_placed hp) (h.child hp) hlt hpx')

end Holds

/-! ## Kinds take turns -/

/-- Whether a place has the expansion of a category in which the categories
above it are under way. -/
def HoldsExpansion (g : AbstractGrammar) (t : DerivationTree) (x : Nat) : Prop :=
  ∃ parent category shared, t.Holds parent x (expand g (t.categoriesAbove x) category shared)

/-- A category with an expansion below it is a leaf just if the expansion is
one. -/
theorem HoldsExpansion.children_ne_nil {g : AbstractGrammar} {t : DerivationTree} {x : Nat}
    {n : Node} (h : HoldsExpansion g t x) (hn : t.node? x = some n) :
    n.kind = .category ∧ (n.children ≠ [] ↔
      n.shared = false ∧ n.name ∉ t.categoriesAbove x ∧ g.hasFunctions n.name = true) := by
  obtain ⟨parent, category, shared, h⟩ := h
  rw [h.node?, Option.some.injEq] at hn
  subst hn
  simp only [row, Expansion.label_expand, Ne, List.map_eq_nil_iff, Rose.placed_eq_nil, true_and]
  exact Expansion.children_expand_ne_nil

/-- In the place of an expansion, with the categories above it under way,
categories and functions take turns: every other place has an expansion of
that kind too, below a function, or a function below a category. -/
theorem Holds.alternates {t : DerivationTree} {g : AbstractGrammar} (visiting : List String)
    (category : String) (shared : Bool) :
    ∀ {parent id}, t.Holds parent id (expand g visiting category shared) →
      t.categoriesAbove id = visiting →
      ∀ {x}, id ≤ x → x < id + (expand g visiting category shared).size →
        (HoldsExpansion g t x ∧ (x = id ∨ t.parentKind? x = some .function)) ∨
        (t.kind? x = some .function ∧ t.parentKind? x = some .category) := by
  induction visiting, category, shared using Expansion.induct (g := g) with
  | leaf visiting category shared hleaf =>
    intro parent id h habove x hx hx'
    rw [Expansion.expand_leaf hleaf, Rose.size, Rose.sizeAll] at hx'
    obtain rfl : x = id := by omega
    exact .inl ⟨⟨parent, category, shared, habove.symm ▸ h⟩, .inl rfl⟩
  | expanded visiting category hv hf ih =>
    intro parent id h habove x hx hx'
    by_cases hxid : x = id
    · subst hxid
      exact .inl ⟨⟨parent, category, false, habove.symm ▸ h⟩, .inl rfl⟩
    rw [Builder.expand_expanded hv hf] at h hx'
    obtain ⟨p, hp, choice, hchoice, rfl | ⟨q, hq, a, ha, hqx, hqx'⟩⟩ :=
      exists_placed_functionTrees (Nat.lt_of_le_of_ne hx (Ne.symm hxid)) hx'
    · refine .inr ⟨?_, h.parentKind?_child hp⟩
      rw [(h.child hp).kind?, ← hchoice]
      rfl
    have hfunction := h.child hp
    have hargument := hfunction.child hq
    -- An argument has one category more above it than the category itself.
    have habove' : t.categoriesAbove q.1 = category :: visiting := by
      rw [hfunction.categoriesAbove_child hq, h.categoriesAbove_child hp, habove, ← hchoice]
      rfl
    rw [← ha] at hargument hqx'
    rcases ih a.1 a.2 hargument habove' hqx hqx' with ⟨hexp, rfl | hkind⟩ | hkinds
    · refine .inl ⟨hexp, .inr ?_⟩
      rw [hfunction.parentKind?_child hq, ← hchoice]
      rfl
    · exact .inl ⟨hexp, .inr hkind⟩
    · exact .inr hkinds

/-- No link to a parent is left out on the way up. -/
theorem ancestors_ofRose (r : Rose Role) (x : Nat) :
    (ofRose r).ancestors x
      = ((ofRose r).parent? x).elim [] fun p => p :: (ofRose r).ancestors p := by
  cases hp : (ofRose r).parent? x with
  | none => exact ancestors_of_root hp
  | some p =>
    have hchild : x ∈ (ofRose r).children p := (mem_children_ofRose r p x).2 hp
    exact ancestors_of_parent hp (isProper_ofRose hchild).1

/-- In the tree of a category, categories and functions take turns, and every
category has its expansion. -/
theorem alternates_ofCategory {g : AbstractGrammar} {category : String} {x : Nat} {n : Node}
    (hn : (ofRose (Expansion.ofCategory g category)).node? x = some n) :
    let t := ofRose (Expansion.ofCategory g category)
    (n.kind = .category ∧ HoldsExpansion g t x ∧ (x = root ∨ t.parentKind? x = some .function)) ∨
      (n.kind = .function ∧ t.parentKind? x = some .category) := by
  intro t
  have hroot : t.Holds none root (Expansion.ofCategory g category) := holds_ofRose _
  have habove : t.categoriesAbove root = [] := by
    rw [categoriesAbove, ancestors_of_root hroot.parent?, List.filterMap_nil]
  have hx : x < root + (Expansion.ofCategory g category).size := by
    rw [root, Nat.zero_add, ← size_ofRose]
    exact lt_size_of_node? hn
  rcases hroot.alternates [] category false habove (Nat.zero_le x) hx with
    ⟨hexp, hparent⟩ | ⟨hkind, hparent⟩
  · exact .inl ⟨(hexp.children_ne_nil hn).1, hexp, hparent⟩
  · rw [kind?, hn, Option.map_some, Option.some.injEq] at hkind
    exact .inr ⟨hkind, hparent⟩

/-- **On its own path a category is expanded once.** In the tree that the
machine builds of any category of any grammar, seen along the links to the
parents alone: a category node has children just if it is not marked, some
function produces its category, and no category node above it has the same
name. Categories and functions take turns. So where a category stands below
itself, it is a leaf. -/
theorem expanded_once_on_path (g : AbstractGrammar) (category : String) :
    let t := (build g category).tree
    (∀ x, t.ancestors x = (t.parent? x).elim [] fun p => p :: t.ancestors p) ∧
      (∀ x n, t.node? x = some n → n.kind = .category →
        (n.children ≠ [] ↔ n.shared = false ∧ g.hasFunctions n.name = true ∧
          ∀ a ∈ t.ancestors x, ∀ m, t.node? a = some m → m.kind = .category → m.name ≠ n.name)) ∧
      (∀ x n, t.node? x = some n → n.kind = .function → t.parentKind? x = some .category) ∧
      (∀ x n, t.node? x = some n → n.kind = .category → x ≠ root →
        t.parentKind? x = some .function) ∧
      (∀ x n, t.node? x = some n → n.kind = .category → ∀ a ∈ t.ancestors x, ∀ m,
        t.node? a = some m → m.kind = .category → m.name = n.name → n.children = []) := by
  intro t
  have ht : t = ofRose (Expansion.ofCategory g category) := tree_build g category
  have hturns : ∀ x n, t.node? x = some n →
      (n.kind = .category ∧ HoldsExpansion g t x ∧
        (x = root ∨ t.parentKind? x = some .function)) ∨
      (n.kind = .function ∧ t.parentKind? x = some .category) := by
    rw [ht]
    exact fun x n hn => alternates_ofCategory hn
  have hleaf : ∀ x n, t.node? x = some n → n.kind = .category → (n.children ≠ [] ↔
      n.shared = false ∧ g.hasFunctions n.name = true ∧
        ∀ a ∈ t.ancestors x, ∀ m, t.node? a = some m → m.kind = .category → m.name ≠ n.name) := by
    intro x n hn hcategory
    rcases hturns x n hn with ⟨-, hexp, -⟩ | ⟨hfunction, -⟩
    · rw [(hexp.children_ne_nil hn).2, mem_categoriesAbove]
      simp only [not_exists, not_and]
      rw [and_comm (a := ∀ a ∈ t.ancestors x, _)]
    · rw [hcategory] at hfunction
      cases hfunction
  refine ⟨fun x => ?_, hleaf, fun x n hn hfunction => ?_, fun x n hn hcategory hx => ?_,
    fun x n hn hcategory a ha m hm hkind hname => ?_⟩
  · rw [ht]
    exact ancestors_ofRose _ x
  · rcases hturns x n hn with ⟨hcategory, -⟩ | ⟨-, hparent⟩
    · rw [hfunction] at hcategory
      cases hcategory
    · exact hparent
  · rcases hturns x n hn with ⟨-, -, hself | hparent⟩ | ⟨hfunction, -⟩
    · exact absurd hself hx
    · exact hparent
    · rw [hcategory] at hfunction
      cases hfunction
  · by_contra hne
    exact ((hleaf x n hn hcategory).1 hne).2.2 a ha m hm hkind hname

end DerivationTree

end GrammarExplorer
