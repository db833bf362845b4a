/-
How many lines a drawing has.

The text of a drawing is made of one piece for each node, in the order of the
ids, and each piece ends its line (`draw_eq`). A piece is one line unless the
part of the label that is shown has line breaks of its own, which are drawn as
they are (`count_draw`): then what follows the break looks like the line of
another node.
-/
import GrammarExplorer.Grammar.Source
import GrammarExplorer.Proofs.Format.Drawing
import GrammarExplorer.Proofs.Snapshot

namespace GrammarExplorer.Drawing

/-! ## Line breaks -/

theorem count_lines (s : Snapshot) (places : List (List Nat × SnapshotEntry)) :
    (String.join (places.map fun x => lineAt s x ++ "\n")).toList.count '\n'
      = places.length + (places.map fun x => breaks x.2.label).sum := by
  induction places with
  | nil => rfl
  | cons x places ih =>
    have hend : "\n".toList.count '\n' = 1 := rfl
    rw [List.map_cons, String.join_cons, String.toList_append, String.toList_append,
      List.count_append, List.count_append, ih, count_lineAt, hend, List.length_cons, List.map_cons,
      List.sum_cons]
    omega

/-- A drawing has a line break for each node, and those of the labels. -/
theorem count_draw (s : Snapshot) : (draw s).toList.count '\n'
    = s.size + (s.preorder.map fun e => breaks e.label).sum := by
  rw [draw_eq, count_lines, ← Rose.length_preorder, ← Rose.map_snd_places, List.length_map,
    List.map_map]
  rfl

/-- Where no part of a label that is shown has a line break, the lines of the
text are the pieces. -/
theorem splitOn_draw {s : Snapshot} (h : ∀ e ∈ s.preorder, breaks e.label = 0) :
    (draw s).toList.splitOn '\n' = (s.places.map (lineAt s) ++ [""]).map String.toList := by
  have hlines : ∀ line ∈ s.places.map (lineAt s), '\n' ∉ line.toList :=
    List.forall_mem_map.2 fun x => notMem_lineAt h
  rw [← splitOn_join_lines hlines, draw_eq, List.map_map]
  rfl

/-! ## The pieces in order -/

open DerivationTree

theorem label_ofNode (t : DerivationTree) (id : Nat) : (Snapshot.ofNode t id).label
    = ((t.node? id).map (Snapshot.entryOf id)).getD (Snapshot.emptyEntry id) := by
  rw [Snapshot.ofNode]
  cases t.node? id <;> rfl

theorem size_ofTree {t : DerivationTree} (hwalk : t.walk = List.range t.size) :
    (Snapshot.ofTree t).size = t.size := by
  have hlength := congrArg List.length (Snapshot.ids_ofTree t)
  rwa [hwalk, List.length_map, Rose.length_preorder, List.length_range] at hlength

section Shown

variable {t : DerivationTree} {r : Rose Role} (h : t.original = ofRose r)
  (hwalk : t.walk = List.range t.size)

include h hwalk

/-- The nodes are shown in the order of their ids. -/
theorem getElem?_preorder_ofTree {k : Nat} {n : Node} (hn : t.node? k = some n) :
    (Snapshot.ofTree t).preorder[k]? = some (Snapshot.entryOf k n) := by
  have hk : k < t.size := by
    have hsome : t.contains k = true := by rw [← isSome_node?, hn, Option.isSome_some]
    exact of_decide_eq_true hsome
  have hids : ((Snapshot.ofTree t).preorder[k]?).map (·.id) = some k := by
    rw [← List.getElem?_map, Snapshot.ids_ofTree, hwalk, List.getElem?_range hk]
  obtain ⟨e, he, hid⟩ := Option.map_eq_some_iff.1 hids
  -- The entry is that of some node, and so of the one with its id.
  have hplace : ∃ address, (address, e) ∈ (Snapshot.ofTree t).places := by
    have hmem := List.mem_of_getElem? he
    rw [← Rose.map_snd_places] at hmem
    obtain ⟨place, hplace, rfl⟩ := List.mem_map.1 hmem
    exact ⟨place.1, hplace⟩
  obtain ⟨address, hplace⟩ := hplace
  obtain ⟨part, hpart, rfl⟩ := Option.map_eq_some_iff.1 (Rose.mem_places_iff.1 hplace)
  obtain ⟨x, rfl⟩ := Snapshot.exists_of_at? h hpart
  have hx : x = k := by
    rw [← hid, label_ofNode]
    cases t.node? x <;> rfl
  rw [he, label_ofNode, hx, hn]
  rfl

theorem mem_preorder_ofTree {e : SnapshotEntry} : e ∈ (Snapshot.ofTree t).preorder ↔
    ∃ k n, t.node? k = some n ∧ e = Snapshot.entryOf k n := by
  constructor
  · intro he
    obtain ⟨k, hk⟩ := List.mem_iff_getElem?.1 he
    have hlt : k < t.size := by
      rw [← size_ofTree hwalk, ← Rose.length_preorder]
      exact (List.getElem?_eq_some_iff.1 hk).1
    obtain ⟨n, hn⟩ := exists_node? hlt
    rw [getElem?_preorder_ofTree h hwalk hn, Option.some.injEq] at hk
    exact ⟨k, n, hn, hk.symm⟩
  · rintro ⟨k, n, hn, rfl⟩
    exact List.mem_of_getElem? (getElem?_preorder_ofTree h hwalk hn)

/-- The first characters of the labels, those that are shown, have no line
breaks. -/
theorem breaks_ofTree_iff : (∀ e ∈ (Snapshot.ofTree t).preorder, breaks e.label = 0) ↔
    ∀ k n, t.node? k = some n → '\n' ∉ n.label.toList.take labelLimit := by
  simp only [mem_preorder_ofTree h hwalk, ← breaks_eq_zero_iff]
  constructor
  · exact fun hbreaks k n hn => hbreaks _ ⟨k, n, hn, rfl⟩
  · rintro hbreaks _ ⟨k, n, hn, rfl⟩
    exact hbreaks k n hn

end Shown

/-- **One line for each node, unless labels have line breaks.** Of a session on
any category, after any operations: the drawing is made of one piece for each
node, in the order of the ids, each with a line break at its end; the piece of a
node has the columns and the connector of its place, the icon, and the label.
The drawing has as many line breaks as the tree has nodes, and as many more as
there are in the first characters of the labels, those that are shown. So there
is one line for each node just if there are none of these, and then the lines
are the pieces. -/
theorem lines_run (g : Grammar) (category : String) (operations : List Session.Operation) :
    let s := (Session.ofCategory g category).run operations
    let pieces := s.snapshot.places.map (lineAt s.snapshot)
    let unbroken := ∀ k n, s.tree.node? k = some n → '\n' ∉ n.label.toList.take labelLimit
    (draw s.snapshot = String.join (pieces.map (· ++ "\n")) ∧ pieces.length = s.tree.size ∧
      ∀ k n, s.tree.node? k = some n → ∃ address,
        (s.snapshot.at? address).map Rose.label = some (Snapshot.entryOf k n) ∧
        pieces[k]? = some (lead (s.snapshot.turns address) ++ nodeText (Snapshot.entryOf k n))) ∧
    ((draw s.snapshot).toList.count '\n'
      = s.tree.size + (s.snapshot.preorder.map fun e => breaks e.label).sum) ∧
    ((draw s.snapshot).toList.count '\n' = s.tree.size ↔ unbroken) ∧
    (unbroken →
      (draw s.snapshot).toList.splitOn '\n' = (pieces ++ [""]).map String.toList) := by
  intro s pieces unbroken
  have h : s.tree.original = ofRose (Expansion.ofCategory g.abstractGrammar category) :=
    Session.original_run_ofCategory g category operations
  have hwalk : s.tree.walk = List.range s.tree.size :=
    Session.walk_run_ofCategory g category operations
  have hsize : s.snapshot.size = s.tree.size := size_ofTree hwalk
  have hentry : ∀ k n, s.tree.node? k = some n →
      s.snapshot.preorder[k]? = some (Snapshot.entryOf k n) :=
    fun k n => getElem?_preorder_ofTree h hwalk
  have hbreaks : (∀ e ∈ s.snapshot.preorder, breaks e.label = 0) ↔ unbroken :=
    breaks_ofTree_iff h hwalk
  have hcount := count_draw s.snapshot
  rw [hsize] at hcount
  refine ⟨⟨?_, ?_, fun k n hn => ?_⟩, hcount, ?_, fun hunbroken => splitOn_draw (hbreaks.2 hunbroken)⟩
  · rw [draw_eq, List.map_map]
    rfl
  · rw [List.length_map, ← hsize, ← Rose.length_preorder, ← Rose.map_snd_places, List.length_map]
  · have hplace := hentry k n hn
    rw [← Rose.map_snd_places, List.getElem?_map] at hplace
    obtain ⟨⟨address, e⟩, hplace, rfl⟩ := Option.map_eq_some_iff.1 hplace
    refine ⟨address, Rose.mem_places_iff.1 (List.mem_of_getElem? hplace), ?_⟩
    rw [List.getElem?_map, hplace]
    rfl
  · have hsum : (s.snapshot.preorder.map fun e => breaks e.label).sum = 0 ↔ unbroken := by
      rw [← hbreaks, List.sum_eq_zero_iff_forall_eq_nat, List.forall_mem_map]
    rw [hcount, ← hsum]
    omega

/-- A document with one function, of this name and these arguments. -/
def singleDocument (name : String) (arguments : List String) : Json :=
  .object [("abstract", .object [
    ("startcat", .string "S"),
    ("funs", .object [
      (name, .object [("cat", .string "S"), ("args", .array (arguments.map .string))])])])]

/-- The line break in the name of a function is drawn as it is: two nodes make
three lines, and these are the lines of a function with an argument. -/
theorem line_break_in_name :
    ∃ forged honest,
      (Source.value (singleDocument "f\n  └─ ◇ A" [])).grammar ⟨[]⟩ = .ok forged ∧
      (Source.value (singleDocument "f" ["A"])).grammar ⟨[]⟩ = .ok honest ∧
      (Session.ofGrammar forged).tree.size = 2 ∧
      (draw (Session.ofGrammar forged).snapshot).toList.count '\n' = 3 ∧
      draw (Session.ofGrammar forged).snapshot = draw (Session.ofGrammar honest).snapshot := by
  refine ⟨_, _, rfl, rfl, ?_⟩
  decide +kernel

end GrammarExplorer.Drawing
