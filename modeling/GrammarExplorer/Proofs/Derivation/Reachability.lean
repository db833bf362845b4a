/-
What a built tree is complete for: every category that can be reached from
the one it was built of, every function of these, and a remark on each of
them that nothing produces.

A category is reached from another by way of the arguments of a function
(`Mentions`). Cutting on the path and leaving repeated arguments unexpanded
lose nothing: where a category with functions stands in an expansion, it is
expanded somewhere in the same expansion, unless it was under way at the start
(`opened_or_visiting`). A cut category is expanded above the cut, and a marked
one beside the mark.
-/
import GrammarExplorer.Proofs.Derivation.Sharing
import Mathlib.Data.List.Induction
import Mathlib.Logic.Relation

namespace GrammarExplorer

namespace AbstractGrammar

/-- A category mentions the arguments of the functions that produce it. -/
def Mentions (g : AbstractGrammar) (category argument : String) : Prop :=
  ∃ f ∈ g.producers category, argument ∈ f.arguments

/-- A category is reached by any number of mentions, none included. -/
def Reaches (g : AbstractGrammar) : String → String → Prop := Relation.ReflTransGen g.Mentions

end AbstractGrammar

namespace Builder

variable {g : AbstractGrammar} {category : String}

theorem mentions_of_mem_marks {a : String × Bool} (h : a ∈ marks g category) :
    g.Mentions category a.1 := by
  have hrow := List.mem_map_of_mem (f := fun a : String × Bool => a.1) h
  rw [map_fst_marks] at hrow
  exact List.mem_flatMap.1 hrow

theorem exists_mark {f : AbstractFunction} {a : String} (hf : f ∈ g.producers category)
    (ha : a ∈ f.arguments) : ∃ shared, (a, shared) ∈ marks g category := by
  have hrow : a ∈ argumentRow g category := List.mem_flatMap.2 ⟨f, hf, ha⟩
  rw [← map_fst_marks, List.mem_map] at hrow
  obtain ⟨⟨b, shared⟩, hm, rfl⟩ := hrow
  exact ⟨shared, hm⟩

/-- An argument is somewhere left unmarked. -/
theorem unmarked_mem {a : String × Bool} (h : a ∈ marks g category) :
    (a.1, false) ∈ marks g category := by
  obtain ⟨name, shared⟩ := a
  cases shared with
  | false => exact h
  | true =>
    obtain ⟨i, hi⟩ := List.mem_iff_getElem?.1 h
    obtain ⟨k, -, hk⟩ := exists_unmarked hi
    exact List.mem_of_getElem? hk

end Builder

namespace Expansion

open Builder (choices marks functionTrees)

variable {g : AbstractGrammar}

theorem label_mem_preorder (r : Rose Role) : r.label ∈ r.preorder := by
  cases r with
  | node role cs =>
    rw [Rose.preorder_node]
    exact List.mem_cons_self

/-- What stands in an expansion: the category, its functions, and what stands
in the expansions of their arguments. -/
theorem mem_preorder_expanded {visiting : List String} {category : String}
    (hv : category ∉ visiting) (hf : g.hasFunctions category = true) {role : Role} :
    role ∈ (expand g visiting category false).preorder ↔
      role = ⟨category, .category, false⟩ ∨
      (∃ f ∈ g.producers category, role = ⟨f.name, .function, false⟩) ∨
      ∃ a ∈ marks g category, role ∈ (expand g (category :: visiting) a.1 a.2).preorder := by
  have hnames : (choices g category).map (·.1) = (g.producers category).map (·.name) :=
    Builder.map_choices g category fun name _ => name
  have hfunctions : (∃ choice ∈ choices g category, role = ⟨choice.1, .function, false⟩)
      ↔ ∃ f ∈ g.producers category, role = ⟨f.name, .function, false⟩ := by
    have := congrArg (fun names : List String =>
      ∃ name ∈ names, role = ⟨name, .function, false⟩) hnames
    simpa using this
  rw [Builder.expand_expanded hv hf, Rose.preorder_node, List.mem_cons, ← hfunctions, functionTrees,
    List.flatMap_map, List.mem_flatMap, marks]
  refine or_congr_right ?_
  simp only [Builder.functionTree, Rose.preorder_node, List.mem_cons, List.flatMap_map,
    List.mem_flatMap]
  constructor
  · rintro ⟨choice, hc, hrole | ⟨a, ha, hrole⟩⟩
    · exact .inl ⟨choice, hc, hrole⟩
    · exact .inr ⟨a, ⟨choice, hc, ha⟩, hrole⟩
  · rintro (⟨choice, hc, hrole⟩ | ⟨a, ⟨choice, hc, ha⟩, hrole⟩)
    · exact ⟨choice, hc, .inl hrole⟩
    · exact ⟨choice, hc, .inr ⟨a, ha, hrole⟩⟩

/-- Whatever category stands in an expansion can be reached. -/
theorem reaches_of_mem (visiting : List String) (category : String) (shared : Bool) :
    ∀ role ∈ (expand g visiting category shared).preorder, role.kind = .category →
      g.Reaches category role.name := by
  induction visiting, category, shared using Expansion.induct (g := g) with
  | leaf visiting category shared hleaf =>
    intro role hrole _
    rw [expand_leaf hleaf, Rose.preorder_node, List.mem_cons] at hrole
    rcases hrole with rfl | hrole
    · exact .refl
    · simp at hrole
  | expanded visiting category hv hf ih =>
    intro role hrole hkind
    rcases (mem_preorder_expanded hv hf).1 hrole with rfl | ⟨f, -, rfl⟩ | ⟨a, ha, hrole⟩
    · exact .refl
    · cases hkind
    · exact .head (Builder.mentions_of_mem_marks ha) (ih a.1 a.2 role hrole hkind)

/-- Whether the functions of a category and their arguments all stand in a
tree. -/
def Opened (g : AbstractGrammar) (r : Rose Role) (category : String) : Prop :=
  ∀ f ∈ g.producers category, ⟨f.name, .function, false⟩ ∈ r.preorder ∧
    ∀ a ∈ f.arguments, ∃ shared, ⟨a, .category, shared⟩ ∈ r.preorder

theorem opened_self {visiting : List String} {category : String} (hv : category ∉ visiting)
    (hf : g.hasFunctions category = true) :
    Opened g (expand g visiting category false) category := by
  intro f hmem
  refine ⟨(mem_preorder_expanded hv hf).2 (.inr (.inl ⟨f, hmem, rfl⟩)), fun a ha => ?_⟩
  obtain ⟨shared, hm⟩ := Builder.exists_mark hmem ha
  have hlabel := label_mem_preorder (expand g (category :: visiting) a shared)
  rw [label_expand] at hlabel
  exact ⟨shared, (mem_preorder_expanded hv hf).2 (.inr (.inr ⟨_, hm, hlabel⟩))⟩

/-- What is opened in a tree is opened in any tree that has all its nodes. -/
theorem Opened.mono {r s : Rose Role} {category : String} (h : Opened g r category)
    (hsub : ∀ role ∈ r.preorder, role ∈ s.preorder) : Opened g s category := by
  intro f hmem
  obtain ⟨hfun, hargs⟩ := h f hmem
  refine ⟨hsub _ hfun, fun a ha => ?_⟩
  obtain ⟨shared, ha⟩ := hargs a ha
  exact ⟨shared, hsub _ ha⟩

/-- A category with functions that stands in an expansion is opened in it,
unless it was under way from the start. -/
theorem opened_or_visiting (visiting : List String) (category : String) (shared : Bool) :
    shared = false → ∀ role ∈ (expand g visiting category shared).preorder,
      role.kind = .category → g.hasFunctions role.name = true →
      role.name ∈ visiting ∨ Opened g (expand g visiting category shared) role.name := by
  induction visiting, category, shared using Expansion.induct (g := g) with
  | leaf visiting category shared hleaf =>
    rintro rfl role hrole _ hf
    rw [expand_leaf hleaf, Rose.preorder_node, List.mem_cons] at hrole
    rcases hrole with rfl | hrole
    · left
      simpa [hf] using hleaf
    · simp at hrole
  | expanded visiting category hv hf ih =>
    intro _ role hrole hkind hrf
    rcases (mem_preorder_expanded hv hf).1 hrole with rfl | ⟨f, -, rfl⟩ | ⟨a, ha, hrole⟩
    · exact .inr (opened_self hv hf)
    · cases hkind
    -- A marked argument is a leaf, and stands unmarked somewhere else.
    have hunmarked := Builder.unmarked_mem ha
    obtain ⟨role', hrole', hkind', hname⟩ :
        ∃ role' ∈ (expand g (category :: visiting) a.1 false).preorder,
          role'.kind = .category ∧ role'.name = role.name := by
      cases hs : a.2 with
      | false => exact ⟨role, hs ▸ hrole, hkind, rfl⟩
      | true =>
        rw [hs, expand_leaf (by simp), Rose.preorder_node] at hrole
        have hlabel := label_mem_preorder (expand g (category :: visiting) a.1 false)
        rw [label_expand] at hlabel
        exact ⟨_, hlabel, rfl, by simp_all⟩
    rw [← hname] at hrf ⊢
    rcases ih a.1 false rfl role' hrole' hkind' hrf with hmem | hopen
    · rcases List.mem_cons.1 hmem with hself | hmem
      · rw [hself]
        exact .inr (opened_self hv hf)
      · exact .inl hmem
    · exact .inr (hopen.mono fun role hrole =>
        (mem_preorder_expanded hv hf).2 (.inr (.inr ⟨_, hunmarked, hrole⟩)))

/-- Every category that can be reached stands in the expansion. -/
theorem mem_of_reaches {category x : String} (h : g.Reaches category x) :
    ∃ shared, ⟨x, .category, shared⟩ ∈ (ofCategory g category).preorder := by
  induction h with
  | refl =>
    have hlabel := label_mem_preorder (expand g [] category false)
    rw [label_expand] at hlabel
    exact ⟨false, hlabel⟩
  | tail _ hmention ih =>
    obtain ⟨shared, hx⟩ := ih
    obtain ⟨f, hf, ha⟩ := hmention
    have hopen := opened_or_visiting [] category false rfl _ hx rfl
      (AbstractGrammar.hasFunctions_of_mem hf)
    simp only [List.not_mem_nil, false_or] at hopen
    exact (hopen f hf).2 _ ha

/-- So does every function of such a category. -/
theorem function_mem_of_reaches {category x : String} (h : g.Reaches category x)
    {f : AbstractFunction} (hf : f ∈ g.producers x) :
    ⟨f.name, .function, false⟩ ∈ (ofCategory g category).preorder := by
  obtain ⟨shared, hx⟩ := mem_of_reaches h
  have hopen := opened_or_visiting [] category false rfl _ hx rfl
    (AbstractGrammar.hasFunctions_of_mem hf)
  simp only [List.not_mem_nil, false_or] at hopen
  exact (hopen f hf).1

end Expansion

/-! ## Remarks -/

namespace DerivationTree

/-- The name of a category. -/
def categoryName? (role : Role) : Option String :=
  if role.kind = .category then some role.name else none

/-- The names of the category nodes, in the order of a walk. -/
def categoryNames (t : DerivationTree) : List String :=
  t.walk.filterMap fun id => ((t.node? id).map roleOf).bind categoryName?

/-- Whether every marked category stands unmarked before. -/
def Preceded (roles : List Role) : Prop :=
  ∀ (i : Nat) (role : Role), roles[i]? = some role → role.shared = true →
    ∃ k < i, roles[k]? = some ⟨role.name, .category, false⟩

theorem Preceded.of_append {roles more : List Role} (h : Preceded (roles ++ more)) :
    Preceded roles := by
  intro i role hi hshared
  obtain ⟨hlt, -⟩ := List.getElem?_eq_some_iff.1 hi
  obtain ⟨k, hk, hrole⟩ := h i role (by rwa [List.getElem?_append_left hlt]) hshared
  exact ⟨k, hk, by rwa [List.getElem?_append_left (by omega)] at hrole⟩

/-- Passing over the marked nodes misses no category that nothing
produces. -/
theorem eraseDups_remarks {g : AbstractGrammar} {roles : List Role} (h : Preceded roles) :
    (roles.filterMap (Builder.remark? g)).eraseDups
      = ((roles.filterMap categoryName?).eraseDups.filter fun x => !g.hasFunctions x).map
          .unknownCategory := by
  induction roles using List.reverseRecOn with
  | nil => rfl
  | append_singleton roles role ih =>
    have ih := ih h.of_append
    have hmem : ∀ x, .unknownCategory x ∈ roles.filterMap (Builder.remark? g) ↔
        x ∈ roles.filterMap categoryName? ∧ g.hasFunctions x = false := by
      intro x
      rw [← List.mem_eraseDups, ih]
      simp
    rw [List.filterMap_append, List.filterMap_append]
    by_cases hkind : role.kind = .category
    · have hname : [role].filterMap categoryName? = [role.name] := by simp [categoryName?, hkind]
      rw [hname, eraseDups_concat]
      by_cases hremark : role.shared = false ∧ g.hasFunctions role.name = false
      · have hsome : [role].filterMap (Builder.remark? g) = [.unknownCategory role.name] := by
          simp [Builder.remark?, hkind, hremark.1, hremark.2]
        rw [hsome, eraseDups_concat]
        by_cases hseen : role.name ∈ roles.filterMap categoryName?
        · rw [if_pos ((hmem _).2 ⟨hseen, hremark.2⟩), if_pos hseen, ih]
        · rw [if_neg fun hd => hseen ((hmem _).1 hd).1, if_neg hseen, ih]
          simp [hremark.2]
      · have hnone : [role].filterMap (Builder.remark? g) = [] := by
          simp only [not_and] at hremark
          simpa [Builder.remark?, hkind] using hremark
        rw [hnone, List.append_nil, ih]
        split
        · rfl
        -- The first node of a category is not marked, so the category has functions.
        · next hseen =>
          have hunshared : role.shared = false := by
            by_contra hs
            obtain ⟨k, hk, hrole⟩ := h roles.length role (by simp) (by simpa using hs)
            rw [List.getElem?_append_left hk] at hrole
            exact hseen (List.mem_filterMap.2 ⟨_, List.mem_of_getElem? hrole, rfl⟩)
          have hf : g.hasFunctions role.name = true := by simpa [hunshared] using hremark
          simp [hf]
    · simp [Builder.remark?, categoryName?, hkind, ih]

theorem getElem?_preorder (r : Rose Role) (i : Nat) :
    r.preorder[i]? = ((ofRose r).node? i).map roleOf := by
  rw [node?_eq, ← List.getElem?_map, map_roleOf_ofRose]

theorem filterMap_range {α β : Type} (f : α → Option β) :
    ∀ l : List α, (List.range l.length).filterMap (fun i => (l[i]?).bind f) = l.filterMap f
  | [] => rfl
  | a :: l => by
    rw [List.length_cons, List.range_succ_eq_map, List.filterMap_cons, List.filterMap_map,
      List.filterMap_cons, ← filterMap_range f l]
    rfl

theorem categoryNames_ofRose (r : Rose Role) :
    (ofRose r).categoryNames = r.preorder.filterMap categoryName? := by
  rw [categoryNames, walk_ofRose, size_ofRose, ← Rose.length_preorder]
  simp only [← getElem?_preorder]
  exact filterMap_range categoryName? r.preorder

theorem preceded_preorder (g : AbstractGrammar) (category : String) :
    Preceded (Expansion.ofCategory g category).preorder := by
  intro i role hi hshared
  rw [getElem?_preorder, Option.map_eq_some_iff] at hi
  obtain ⟨n, hn, rfl⟩ := hi
  obtain ⟨-, c, -, -, -, -, -, -, y, m, hyi, hm, hkind, honly⟩ := hasOriginal_ofCategory hn hshared
  obtain ⟨-, m', hm', hname, hunshared⟩ := (honly y).2 rfl
  rw [hm] at hm'
  cases hm'
  refine ⟨y, hyi, ?_⟩
  rw [getElem?_preorder, hm, Option.map_some, roleOf, hname, hkind, hunshared]
  rfl

/-- **A built tree is complete.** For every grammar and every category, the
category nodes of the tree that the machine builds are for the categories that
can be reached, and for no others; every function of such a category has a
function node; and what the machine remarks on are the categories among them
that nothing produces, each once, in the order of their first occurrence in
preorder. -/
theorem build_complete (g : AbstractGrammar) (category : String) :
    (∀ x, x ∈ (build g category).tree.categoryNames ↔ g.Reaches category x) ∧
      (∀ x, g.Reaches category x → ∀ f ∈ g.producers x, ∃ id n,
        (build g category).tree.node? id = some n ∧ n.kind = .function ∧ n.name = f.name) ∧
      (build g category).diagnostics
        = ((build g category).tree.categoryNames.eraseDups.filter fun x =>
            !g.hasFunctions x).map .unknownCategory := by
  rw [diagnostics_build, tree_build, categoryNames_ofRose, Diagnostic.noteAll_nil]
  refine ⟨fun x => ⟨fun hx => ?_, fun hx => ?_⟩, fun x hx f hf => ?_, ?_⟩
  · obtain ⟨role, hrole, hname⟩ := List.mem_filterMap.1 hx
    simp only [categoryName?, Option.ite_none_right_eq_some, Option.some.injEq] at hname
    obtain ⟨hkind, rfl⟩ := hname
    exact Expansion.reaches_of_mem [] category false role hrole hkind
  · obtain ⟨shared, hmem⟩ := Expansion.mem_of_reaches hx
    exact List.mem_filterMap.2 ⟨_, hmem, rfl⟩
  · have hmem := Expansion.function_mem_of_reaches hx hf
    obtain ⟨id, hid⟩ := List.mem_iff_getElem?.1 hmem
    rw [getElem?_preorder, Option.map_eq_some_iff] at hid
    obtain ⟨n, hn, hrole⟩ := hid
    exact ⟨id, n, hn, congrArg Role.kind hrole, congrArg Role.name hrole⟩
  · exact eraseDups_remarks (preceded_preorder g category)

end DerivationTree

end GrammarExplorer
