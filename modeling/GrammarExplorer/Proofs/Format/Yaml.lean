/-
What the YAML text of a snapshot is made of.

The text of a node goes on with the texts of its children, each behind a dash
that stands where the fields of its parent stand. `write_eq` says what comes out:
an entry for each node in preorder, set in by two blanks for each node above it.
-/
import GrammarExplorer.Format.Yaml
import GrammarExplorer.Proofs.Rose

namespace GrammarExplorer.YamlFormat

/-- What stands before the first field of a node: nothing for the root, else the
dash of an item, set in like the fields of the parent. -/
def lead : Nat → String
  | 0 => ""
  | depth + 1 => margin (2 * depth) ++ "- "

/-- The entry of a node: its fields, and the key of its children, who have
entries of their own. -/
def entry (depth : Nat) (s : Snapshot) : String :=
  lead depth ++ fields (2 * depth) s.label ++ margin (2 * depth)
    ++ if s.children.isEmpty then "children: []\n" else "children:\n"

/-- The entry of the node at an address. -/
def entryAt (s : Snapshot) (depth : Nat) (address : List Nat) : String :=
  ((s.at? address).map (entry (depth + address.length))).getD ""

theorem items_eq (depth : Nat) (cs : List Snapshot) : items (2 * depth) cs =
    String.join (cs.map fun c => lead (depth + 1) ++ mapping (2 * (depth + 1)) c) := by
  induction cs with
  | nil => rfl
  | cons c cs ih =>
    rw [items, ih, List.map_cons, String.join_cons]
    rfl

/-- The text of a node is its entry, and then the texts of its children. -/
theorem lead_append_mapping (depth : Nat) (e : SnapshotEntry) (cs : List Snapshot) :
    lead depth ++ mapping (2 * depth) (.node e cs) = entry depth (.node e cs) ++
      String.join (cs.map fun c => lead (depth + 1) ++ mapping (2 * (depth + 1)) c) := by
  rw [← items_eq]
  cases cs <;> simp [mapping, entry, Rose.label, Rose.children, items, String.append_assoc]

theorem join_flatMap {α : Type} (f : α → List String) (l : List α) :
    String.join (l.flatMap f) = String.join (l.map fun a => String.join (f a)) := by
  induction l with
  | nil => rfl
  | cons a l ih =>
    rw [List.flatMap_cons, List.map_cons, String.join_cons, ← ih, String.join_append]

/-- The children of a node have their entries one step further in. -/
theorem entryAt_cons {e : SnapshotEntry} {cs : List Snapshot} {c : Snapshot} {i : Nat}
    (hc : cs[i]? = some c) (depth : Nat) (address : List Nat) :
    entryAt (.node e cs) depth (i :: address) = entryAt c (depth + 1) address := by
  rw [entryAt, entryAt, Rose.at?, Rose.children, hc, Option.bind_some, List.length_cons,
    Nat.add_right_comm]
  rfl

theorem lead_append_mapping_eq (s : Snapshot) (depth : Nat) :
    lead depth ++ mapping (2 * depth) s =
      String.join (s.places.map fun place => entryAt s depth place.1) := by
  induction s using Rose.induct generalizing depth with
  | node e cs ih =>
    have hchildren : ∀ c ∈ cs.zipIdx, (c.1.places.map fun x => (c.2 :: x.1, x.2)).map
        (fun place => entryAt (.node e cs) depth place.1) =
          c.1.places.map fun place => entryAt c.1 (depth + 1) place.1 := by
      rintro ⟨c, i⟩ hc
      rw [List.map_map]
      exact List.map_congr_left fun x _ => entryAt_cons (List.mem_zipIdx_iff_getElem?.1 hc) depth x.1
    rw [lead_append_mapping, Rose.places_node, List.map_cons, String.join_cons, List.map_flatMap,
      List.flatMap_congr hchildren,
      Rose.flatMap_zipIdx_fst fun c : Snapshot => c.places.map fun x => entryAt c (depth + 1) x.1,
      join_flatMap, List.map_congr_left fun c hc => ih c hc (depth + 1)]
    rfl

/-- **The YAML text has an entry for each node.** The entries come in preorder,
each with the fields of its node, set in by two blanks for each node above it,
behind a dash unless it is the root; and each says whether the node has children,
whose entries come next. -/
theorem write_eq (s : Snapshot) :
    write s = String.join (s.places.map fun place => entryAt s 0 place.1) := by
  rw [← lead_append_mapping_eq, write, lead, String.empty_append]

/-- Labels that would be read as something else than texts are quoted. -/
example : write (.node ⟨0, "a: b", "null", .category, true, true⟩
      [.node ⟨7, "f", "12", .function, false, false⟩ []])
    = "id: 0\ndisplay_name: 'a: b'\nname: 'null'\nkind: Category\nedited: true\n"
      ++ "has_children: true\nchildren:\n"
      ++ "- id: 7\n  display_name: f\n  name: '12'\n  kind: Function\n  edited: false\n"
      ++ "  has_children: false\n  children: []\n" := by decide +kernel

end GrammarExplorer.YamlFormat
