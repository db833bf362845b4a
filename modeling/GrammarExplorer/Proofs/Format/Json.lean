/-
What the JSON of a snapshot says about it.

A snapshot nests two containers for each of its levels, an object and the list
of the children, so that one of 63 levels stays within what the reader admits
(`Json.depthLimit`). `Shows` says which object stands for a snapshot without
going by the way it is made.
-/
import GrammarExplorer.Format.Json
import GrammarExplorer.Proofs.Json.RoundTrip
import GrammarExplorer.Proofs.Rose

namespace GrammarExplorer

/-! ## Heights -/

theorem Snapshot.height_ofNode {t : DerivationTree} {id : Nat} (h : t.contains id = true) :
    (ofNode t id).height = t.depthFrom id := by
  induction id using Snapshot.ofNode.induct t with
  | case1 id hnone =>
    have houtside : t.size ≤ id := Array.getElem?_eq_none_iff.1 hnone
    have hinside : id < t.size := by simpa [DerivationTree.contains] using h
    omega
  | case2 id n hn ih =>
    rw [ofNode, hn, DerivationTree.depthFrom]
    simp only
    rw [Rose.height_node, Nat.add_comm]
    congr 1
    induction t.children id with
    | nil => rfl
    | cons c cs ihc =>
      simp only [List.foldr_cons]
      split
      · next hproper =>
        have hc : t.contains c = true := by
          rw [DerivationTree.isProper, Bool.and_eq_true] at hproper
          exact hproper.2
        rw [List.map_cons, List.foldr_cons, ih c hproper hc, ihc]
      · exact ihc

/-- A snapshot is as high as the tree is deep. -/
theorem Snapshot.height_ofTree {t : DerivationTree} (h : t.contains DerivationTree.root = true) :
    (ofTree t).height = t.depth := by
  rw [ofTree, height_ofNode h, DerivationTree.depth, if_pos h]

theorem NodeKind.name_injective : Function.Injective NodeKind.name := by
  intro k k' h
  cases k <;> cases k' <;> first | rfl | exact absurd h (by decide)

namespace JsonFormat

/-- Whether the ids are machine words. -/
def IdsFit (s : Snapshot) : Prop := ∀ e ∈ s.preorder, e.id < Json.wordLimit

/-- Whether a value is an object with the fields of a snapshot and no others,
whose children are shown in the same way. -/
inductive Shows : Snapshot → Json → Prop
  | node {e : SnapshotEntry} {children : List Snapshot} {members : List (String × Json)}
    {items : List Json}
    (keys : members.map (·.1) =
      ["id", "display_name", "name", "kind", "edited", "has_children", "children"])
    (id : Json.member? members "id" = some (.number (.integer e.id)))
    (label : Json.member? members "display_name" = some (.string e.label))
    (name : Json.member? members "name" = some (.string e.name))
    (kind : Json.member? members "kind" = some (.string e.kind.name))
    (edited : Json.member? members "edited" = some (.bool e.edited))
    (hasChildren : Json.member? members "has_children" = some (.bool e.hasChildren))
    (below : Json.member? members "children" = some (.array items))
    (shown : List.Forall₂ Shows children items) : Shows (.node e children) (.object members)

theorem toJsonAll_eq_map (ts : List Snapshot) : toJsonAll ts = ts.map toJson := by
  induction ts with
  | nil => rfl
  | cons t ts ih => rw [toJsonAll, ih, List.map_cons]

theorem shows_toJson (s : Snapshot) : Shows s (toJson s) := by
  induction s using Rose.induct with
  | node e cs ih =>
    rw [toJson, toJsonAll_eq_map]
    refine .node rfl rfl rfl rfl rfl rfl rfl rfl ?_
    rw [List.forall₂_map_right_iff, List.forall₂_same]
    exact ih

theorem eq_of_forall₂_shows {cs ds : List Snapshot} {items : List Json}
    (hunique : ∀ c ∈ cs, ∀ {t : Snapshot} {v : Json}, Shows c v → Shows t v → c = t)
    (hcs : List.Forall₂ Shows cs items) (hds : List.Forall₂ Shows ds items) : cs = ds := by
  induction hcs generalizing ds with
  | nil =>
    cases hds
    rfl
  | cons hc _ ih =>
    cases hds with
    | cons hd hrest =>
      rw [hunique _ List.mem_cons_self hc hd,
        ih (fun c hc => hunique c (List.mem_cons_of_mem _ hc)) hrest]

/-- A value shows one snapshot only. -/
theorem Shows.unique {s t : Snapshot} {v : Json} (hs : Shows s v) (ht : Shows t v) : s = t := by
  induction s using Rose.induct generalizing t v with
  | node e cs ih =>
    cases hs with
    | node _ id label name kind edited hasChildren below shown =>
      cases ht with
      | @node e' ds _ _ _ id' label' name' kind' edited' hasChildren' below' shown' =>
        have hentry : e = e' := by
          have hid : e.id = e'.id := Int.ofNat.inj (by simpa using id.symm.trans id')
          have hlabel : e.label = e'.label := by simpa using label.symm.trans label'
          have hname : e.name = e'.name := by simpa using name.symm.trans name'
          have hkind : e.kind = e'.kind :=
            NodeKind.name_injective (by simpa using kind.symm.trans kind')
          have hedited : e.edited = e'.edited := by simpa using edited.symm.trans edited'
          have hchildren : e.hasChildren = e'.hasChildren := by
            simpa using hasChildren.symm.trans hasChildren'
          cases e
          cases e'
          rw [SnapshotEntry.mk.injEq]
          exact ⟨hid, hlabel, hname, hkind, hedited, hchildren⟩
        have hitems := below.symm.trans below'
        simp only [Option.some.injEq, Json.array.injEq] at hitems
        subst hitems
        rw [hentry, eq_of_forall₂_shows (fun c hc _ _ => ih c hc) shown shown']

theorem legible_toJson {s : Snapshot} (hids : IdsFit s) {depth : Nat} (h : 2 * s.height ≤ depth) :
    Json.Legible depth (toJson s) := by
  induction s using Rose.induct generalizing depth with
  | node e cs ih =>
    have hid : e.id < Json.wordLimit := hids e (by rw [Rose.preorder_node]; exact List.mem_cons_self)
    obtain ⟨depth, rfl⟩ : ∃ d, depth = d + 2 := ⟨depth - 2, by rw [Rose.height_node] at h; omega⟩
    have hchildren : ∀ v ∈ cs.map toJson, Json.Legible depth v := by
      intro v hv
      obtain ⟨c, hc, rfl⟩ := List.mem_map.1 hv
      have hlt := Rose.height_lt_of_mem e hc
      have hbelow : IdsFit c := fun x hx => hids x (by
        rw [Rose.preorder_node]
        exact List.mem_cons_of_mem _ (List.mem_flatMap.2 ⟨c, hc, hx⟩))
      exact ih c hc hbelow (by omega)
    rw [toJson, toJsonAll_eq_map]
    refine .object (by simp) fun m hm => ?_
    simp only [List.mem_cons, List.not_mem_nil, or_false] at hm
    rcases hm with rfl | rfl | rfl | rfl | rfl | rfl | rfl
    · exact .integer (by omega) (by exact_mod_cast hid)
    · exact .string e.label
    · exact .string e.name
    · exact .string e.kind.name
    · exact .bool e.edited
    · exact .bool e.hasChildren
    · exact .array hchildren

/-- **The JSON of a snapshot loses nothing.** Whatever the names and labels, the
text of a snapshot of at most 63 levels, as many as its tree is deep
(`Snapshot.height_ofTree`), is read back as an object that has exactly the
fields of the snapshot with their values, and so have, all the way down, the
objects in its list of children. No other such snapshot has this text. Ids are
numbers without a bound here, so that they fit 64 bits is asked for. -/
theorem serialize_determines {s : Snapshot} (hheight : s.height ≤ 63) (hids : IdsFit s) :
    ∃ text v, formatter.serialize s = .ok text ∧ Json.read text = .ok v ∧ Shows s v ∧
      ∀ t : Snapshot, t.height ≤ 63 → IdsFit t → formatter.serialize t = .ok text → t = s := by
  have hread : ∀ t : Snapshot, t.height ≤ 63 → IdsFit t → Json.read (write t) = .ok (toJson t) := by
    intro t ht hfit
    have hdepth : 2 * t.height ≤ Json.depthLimit := by
      rw [Json.depthLimit]
      omega
    exact Json.read_laidOut (legible_toJson hfit hdepth)
  refine ⟨write s, toJson s, rfl, hread s hheight hids, shows_toJson s, fun t ht hfit htext => ?_⟩
  have hvalue : toJson t = toJson s := by
    have hwrite : write t = write s := Except.ok.inj htext
    have heq := hread t ht hfit
    rw [hwrite, hread s hheight hids] at heq
    exact (Except.ok.inj heq).symm
  exact Shows.unique (hvalue ▸ shows_toJson t) (shows_toJson s)

/-- Names that need escapes, names beyond ASCII and the largest id. -/
def awkward : Snapshot :=
  .node ⟨0, "a \"quoted\" \\ name", "\x00\x1f\x7f", .category, false, true⟩ [
    .node ⟨1, "two\nlines\tand a tab", "naïve ƒ ◇ 𝔸", .function, true, false⟩ [],
    .node ⟨18446744073709551615, "", "\\u0041", .function, false, false⟩ []]

theorem serialize_determines_awkward :
    ∃ text v, formatter.serialize awkward = .ok text ∧ Json.read text = .ok v ∧ Shows awkward v ∧
      ∀ t : Snapshot, t.height ≤ 63 → IdsFit t → formatter.serialize t = .ok text →
        t = awkward := by
  have hheight : awkward.height ≤ 63 := by decide
  have hids : IdsFit awkward := by
    unfold IdsFit
    decide
  exact serialize_determines hheight hids

end JsonFormat

end GrammarExplorer
