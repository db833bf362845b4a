/-
What the text of a drawing says about the snapshot.

A drawing is made from a list of nodes that wait for their lines, each with
the indent its ancestors have left to it. `draw_eq` says what comes out without
that list: the lines of the nodes in preorder, each with a column for every
ancestor below the root and a connector of its own (`lead`). A line whose label
has no line break of its own can be taken apart again, whatever the label looks
like, since icons do not occur among columns and connectors; and the number of
columns tells how deep the node lies.
-/
import GrammarExplorer.Format.Drawing
import GrammarExplorer.Proofs.Rose
import Mathlib.Data.List.Forall2

namespace GrammarExplorer.Drawing

/-- The column of an ancestor, which goes on if it has a sibling after it. -/
def column (hasLater : Bool) : String := if hasLater then "│ " else "  "

/-- The connector of a node. -/
def hook (hasLater : Bool) : String := if hasLater then "├─ " else "└─ "

/-- What stands before the icon: nothing for the root, else a column for each
ancestor below the root and the connector of the node itself. -/
def lead : List Bool → String
  | [] => ""
  | [hasLater] => hook hasLater
  | hasLater :: next :: turns => column hasLater ++ lead (next :: turns)

/-- The line of the node at a place, without its end. -/
def lineAt (s : Snapshot) (place : List Nat × SnapshotEntry) : String :=
  lead (s.turns place.1) ++ nodeText place.2

/-! ## The lines of a drawing -/

theorem connector_eq (isLast : Bool) : connector isLast = lead [!isLast] := by
  cases isLast <;> rfl

theorem continuation_append_lead (isLast : Bool) {turns : List Bool} (h : turns ≠ []) :
    continuation isLast ++ lead turns = lead ((!isLast) :: turns) := by
  cases turns with
  | nil => exact absurd rfl h
  | cons next turns => cases isLast <;> rfl

/-- The lines of a node that is pending and of all below it. -/
def Pending.lines (p : Pending) : List String :=
  p.node.places.map fun x => p.indent ++ lead ((!p.isLast) :: p.node.turns x.1) ++ nodeText x.2

/-- The lines of the children of a node are those below it. -/
theorem lines_pendingOf (indent : String) (e : SnapshotEntry) (cs : List Snapshot) :
    (pendingOf indent cs).flatMap Pending.lines =
      (cs.zipIdx.flatMap fun c => c.1.places.map fun x => (c.2 :: x.1, x.2)).map
        fun x => indent ++ lead ((Rose.node e cs).turns x.1) ++ nodeText x.2 := by
  rw [pendingOf, List.flatMap_map, List.map_flatMap]
  refine List.flatMap_congr fun c hc => ?_
  obtain ⟨child, i⟩ := c
  have hchild : cs[i]? = some child := List.mem_zipIdx_iff_getElem?.1 hc
  have hlt : i < cs.length := (List.getElem?_eq_some_iff.1 hchild).1
  have hlast : (!(i == cs.length - 1)) = decide (i + 1 < cs.length) := by
    by_cases h : i + 1 < cs.length
    · have : i ≠ cs.length - 1 := by omega
      simp [h, this]
    · have : i = cs.length - 1 := by omega
      simp [h, ← this]
  simp only [Pending.lines, List.map_map, Function.comp_def, Rose.turns_cons e hchild, hlast]

theorem Pending.lines_eq (p : Pending) :
    p.lines = (p.indent ++ connector p.isLast ++ nodeText p.node.label)
      :: p.below.flatMap Pending.lines := by
  obtain ⟨⟨e, cs⟩, indent, isLast⟩ := p
  rw [Pending.below, Rose.children, lines_pendingOf _ e cs, Pending.lines, Rose.places_node,
    List.map_cons, Rose.turns_nil, ← connector_eq]
  refine congrArg _ (List.map_congr_left fun x hx => ?_)
  -- Below the node every address has a first step.
  have hne : (Rose.node e cs).turns x.1 ≠ [] := by
    obtain ⟨c, -, hc⟩ := List.mem_flatMap.1 hx
    obtain ⟨y, -, rfl⟩ := List.mem_map.1 hc
    rw [← List.length_pos_iff, Rose.length_turns, List.length_cons]
    omega
  simp only [← continuation_append_lead isLast hne, String.append_assoc]

theorem drawOnto_eq (drawn : String) (pending : List Pending) :
    drawOnto drawn pending =
      drawn ++ String.join ((pending.flatMap Pending.lines).map (· ++ "\n")) := by
  induction drawn, pending using drawOnto.induct with
  | case1 drawn => simp [drawOnto]
  | case2 drawn p rest ih =>
    rw [drawOnto, ih, List.flatMap_cons, List.flatMap_append, p.lines_eq, Pending.line]
    simp [String.append_assoc, String.join_cons]

/-- The lines of a drawing in the order of the nodes. -/
theorem draw_eq (s : Snapshot) :
    draw s = String.join (s.places.map fun place => lineAt s place ++ "\n") := by
  cases s with
  | node e cs =>
    rw [draw, drawOnto_eq, Rose.children, lines_pendingOf "" e cs, Rose.places_node, List.map_cons,
      String.join_cons]
    simp [lineAt, lead, Rose.label, Function.comp_def]

/-! ## Taking a drawing apart -/

/-- What a drawing shows of a node: its kind, and its label, cut and marked. -/
def shown (e : SnapshotEntry) : NodeKind × String :=
  (e.kind, truncate labelLimit e.label ++ editMark e.edited)

theorem nodeText_eq (e : SnapshotEntry) : nodeText e = e.kind.icon ++ " " ++ (shown e).2 := by
  simp only [nodeText, shown, String.append_assoc]

/-- A label with at most sixty characters is shown as it is, a longer one by its
first sixty and an ellipsis; behind it, an edited node has a star. -/
theorem shown_eq (e : SnapshotEntry) : shown e = (e.kind,
    (if e.label.length ≤ 60 then e.label else String.ofList (e.label.toList.take 60) ++ "…")
      ++ if e.edited then " *" else "") := by
  by_cases h : e.label.length ≤ 60
  · simp [shown, truncate, labelLimit, editMark, h, Nat.not_lt.2 h]
  · simp [shown, truncate, labelLimit, editMark, h, String.ofList_append]

/-- Whether no label goes on in a second line. -/
def OnOneLine (s : Snapshot) : Prop := ∀ e ∈ s.preorder, '\n' ∉ e.label.toList

/-- How deep the node of a line lies, and what stands behind the connector. -/
def readLine : List Char → Nat × List Char
  | '│' :: ' ' :: line => ((readLine line).1 + 1, (readLine line).2)
  | ' ' :: ' ' :: line => ((readLine line).1 + 1, (readLine line).2)
  | '├' :: '─' :: ' ' :: line => (1, line)
  | '└' :: '─' :: ' ' :: line => (1, line)
  | line => (0, line)

theorem toList_nodeText (e : SnapshotEntry) :
    (nodeText e).toList = e.kind.icon.toList ++ ' ' :: (shown e).2.toList := by
  simp [nodeText_eq]

/-- No column and no connector starts with an icon, so reading stops at the
icon of the node, whatever its label is. -/
theorem readLine_lead (turns : List Bool) (e : SnapshotEntry) :
    readLine ((lead turns).toList ++ (nodeText e).toList) =
      (turns.length, (nodeText e).toList) := by
  induction turns using lead.induct with
  | case1 =>
    rw [toList_nodeText]
    cases e.kind <;> simp [lead, NodeKind.icon, readLine]
  | case2 hasLater => cases hasLater <;> simp [lead, hook, readLine]
  | case3 hasLater next turns ih => cases hasLater <;> simp [lead, column, readLine, ih]

/-- The icon tells the kind. -/
theorem shown_eq_of_nodeText {e e' : SnapshotEntry}
    (h : (nodeText e).toList = (nodeText e').toList) : shown e = shown e' := by
  rw [toList_nodeText, toList_nodeText] at h
  have hkind : e.kind = e'.kind := by
    cases he : e.kind <;> cases he' : e'.kind <;> simp_all [NodeKind.icon]
  rw [hkind, List.append_cancel_left_eq, List.cons.injEq, String.toList_inj] at h
  exact Prod.ext hkind h.2

/-- Equal lines are those of nodes that lie equally deep and look the same. -/
theorem eq_of_lineAt {s t : Snapshot} {x y : List Nat × SnapshotEntry}
    (h : lineAt s x = lineAt t y) : x.1.length = y.1.length ∧ shown x.2 = shown y.2 := by
  have hread := congrArg (fun line : String => readLine line.toList) h
  simp only [lineAt, String.toList_append, readLine_lead, Rose.length_turns, Prod.mk.injEq] at hread
  exact ⟨hread.1, shown_eq_of_nodeText hread.2⟩

/-! ## Lines and their ends -/

theorem notMem_lead (turns : List Bool) : '\n' ∉ (lead turns).toList := by
  induction turns using lead.induct with
  | case1 => decide
  | case2 hasLater => cases hasLater <;> decide
  | case3 hasLater next turns ih => cases hasLater <;> simp [lead, column, ih]

/-- The line breaks in the part of a label that is shown. -/
def breaks (label : String) : Nat := (label.toList.take labelLimit).count '\n'

theorem breaks_eq_zero_iff {label : String} :
    breaks label = 0 ↔ '\n' ∉ label.toList.take labelLimit := List.count_eq_zero

theorem count_truncate (label : String) :
    (truncate labelLimit label).toList.count '\n' = breaks label := by
  unfold truncate breaks
  split
  · simp
  · next h =>
    rw [List.take_of_length_le (by rwa [String.length_toList, ← Nat.not_lt])]

theorem count_lineAt (s : Snapshot) (x : List Nat × SnapshotEntry) :
    (lineAt s x).toList.count '\n' = breaks x.2.label := by
  have hlead : (lead (s.turns x.1)).toList.count '\n' = 0 := List.count_eq_zero.2 (notMem_lead _)
  have hicon : x.2.kind.icon.toList.count '\n' = 0 := by
    cases x.2.kind <;> decide
  have hmark : (editMark x.2.edited).toList.count '\n' = 0 := by
    cases x.2.edited <;> decide
  simp [lineAt, nodeText, hlead, hicon, hmark, count_truncate]

theorem OnOneLine.breaks_eq_zero {s : Snapshot} (h : OnOneLine s) :
    ∀ e ∈ s.preorder, breaks e.label = 0 :=
  fun e he => breaks_eq_zero_iff.2 fun hcut => h e he (List.mem_of_mem_take hcut)

theorem notMem_lineAt {s : Snapshot} (h : ∀ e ∈ s.preorder, breaks e.label = 0)
    {x : List Nat × SnapshotEntry} (hx : x ∈ s.places) : '\n' ∉ (lineAt s x).toList := by
  have he : x.2 ∈ s.preorder := by
    rw [← Rose.map_snd_places]
    exact List.mem_map_of_mem hx
  rw [← List.count_eq_zero, count_lineAt]
  exact h x.2 he

theorem join_lines (lines : List String) :
    String.join (lines.map (· ++ "\n")) = "\n".intercalate (lines ++ [""]) := by
  induction lines with
  | nil => rfl
  | cons line lines ih =>
    have hne : lines ++ [""] ≠ [] := by simp
    rw [List.map_cons, String.join_cons, ih, List.cons_append,
      String.intercalate_cons_of_ne_nil hne]

theorem splitOn_join_lines {lines : List String} (h : ∀ line ∈ lines, '\n' ∉ line.toList) :
    (String.join (lines.map (· ++ "\n"))).toList.splitOn '\n' =
      (lines ++ [""]).map String.toList := by
  rw [join_lines, String.toList_intercalate]
  refine List.splitOn_intercalate '\n' ?_ (by simp)
  intro line hline
  obtain ⟨text, htext, rfl⟩ := List.mem_map.1 hline
  rcases List.mem_append.1 htext with hmem | hend
  · exact h text hmem
  · rw [List.mem_singleton.1 hend]
    decide

/-- Lines can be told from the text they make up, each having one end. -/
theorem eq_of_join_lines {lines lines' : List String} (h : ∀ line ∈ lines, '\n' ∉ line.toList)
    (h' : ∀ line ∈ lines', '\n' ∉ line.toList)
    (heq : String.join (lines.map (· ++ "\n")) = String.join (lines'.map (· ++ "\n"))) :
    lines = lines' := by
  have hsplit : (lines ++ [""]).map String.toList = (lines' ++ [""]).map String.toList := by
    rw [← splitOn_join_lines h, ← splitOn_join_lines h', heq]
  have hinj : Function.Injective String.toList := fun _ _ => String.toList_inj.1
  exact List.append_cancel_right (hinj.list_map hsplit)

/-! ## What a drawing says -/

theorem lines_eq_of_draw_eq {s t : Snapshot} (hs : OnOneLine s) (ht : OnOneLine t)
    (h : draw s = draw t) : s.places.map (lineAt s) = t.places.map (lineAt t) := by
  rw [draw_eq, draw_eq] at h
  have hlines : ∀ {u : Snapshot}, OnOneLine u → ∀ line ∈ u.places.map (lineAt u),
      '\n' ∉ line.toList := by
    intro u hu line hline
    obtain ⟨x, hx, rfl⟩ := List.mem_map.1 hline
    exact notMem_lineAt hu.breaks_eq_zero hx
  refine eq_of_join_lines (hlines hs) (hlines ht) ?_
  simpa [Function.comp_def] using h

/-- Snapshots of one drawing look the same, node by node. -/
theorem map_shown_eq_of_draw_eq {s t : Snapshot} (hs : OnOneLine s) (ht : OnOneLine t)
    (h : draw s = draw t) : s.map shown = t.map shown := by
  -- Line by line the nodes lie equally deep and look the same.
  have hnodes : List.Forall₂ (fun x y => (x.1.length, shown x.2) = (y.1.length, shown y.2))
      s.places t.places := by
    have hlines := lines_eq_of_draw_eq hs ht h
    rw [← List.forall₂_eq_eq_eq, List.forall₂_map_left_iff, List.forall₂_map_right_iff] at hlines
    exact hlines.imp fun x y hxy => Prod.ext_iff.2 (eq_of_lineAt hxy)
  have hdepths : (s.map shown).depths 0 = (t.map shown).depths 0 := by
    rw [← List.forall₂_map_right_iff, ← List.forall₂_map_left_iff, List.forall₂_eq_eq_eq] at hnodes
    rw [Rose.depths_map, Rose.depths_map]
    simpa [Rose.depths, Function.comp_def] using hnodes
  exact Rose.eq_of_depths hdepths

/-- **A drawing determines the tree.** It consists of the lines of the nodes in
preorder, where a line has a column for each ancestor below the root, which
goes on if that ancestor has a later sibling, the connector of the node, its
icon and its label. A label of more than sixty characters is cut there, with an
ellipsis, and an edited node has a star. Two snapshots without line breaks in
their labels that have the same drawing have the same shape, and at every node
the same kind and the same label as far as it is shown. -/
theorem draw_determines (s : Snapshot) :
    draw s = String.join (s.places.map fun place => lineAt s place ++ "\n") ∧
      s.places.map (·.2) = s.preorder ∧
      (∀ address e, (address, e) ∈ s.places ↔ (s.at? address).map Rose.label = some e) ∧
      (∀ e : SnapshotEntry, nodeText e = e.kind.icon ++ " " ++ (shown e).2 ∧ shown e = (e.kind,
        (if e.label.length ≤ 60 then e.label else String.ofList (e.label.toList.take 60) ++ "…")
          ++ if e.edited then " *" else "")) ∧
      ∀ t : Snapshot, OnOneLine s → OnOneLine t → draw s = draw t → s.map shown = t.map shown :=
  ⟨draw_eq s, Rose.map_snd_places s, fun _ _ => Rose.mem_places_iff,
    fun e => ⟨nodeText_eq e, shown_eq e⟩, fun _ => map_shown_eq_of_draw_eq⟩

/-- Two children, one with a label that looks like the end of a line, the other
with a child of its own whose label is cut. -/
def misleading (id : Nat) (ending : String) : Snapshot :=
  .node ⟨id, "◇ S", "S", .category, false, true⟩ [
    .node ⟨id + 1, "│ └─ ƒ x", "Go", .function, true, false⟩ [],
    .node ⟨id + 2, "  ├─ ◇ *", ending, .function, false, true⟩ [
      .node ⟨id + 3, String.ofList (List.replicate 60 '─') ++ ending, "N", .category, true, false⟩
        []]]

theorem draw_determines_misleading :
    OnOneLine (misleading 0 "left") ∧ OnOneLine (misleading 7 "right") ∧
      draw (misleading 0 "left") = draw (misleading 7 "right") ∧
      draw (misleading 0 "left") = "◇ ◇ S\n"
        ++ "├─ ƒ │ └─ ƒ x *\n"
        ++ "└─ ƒ   ├─ ◇ *\n"
        ++ "  └─ ◇ ────────────────────────────────────────────────────────────… *\n" ∧
      (misleading 0 "left").map shown = (misleading 7 "right").map shown := by
  have hleft : OnOneLine (misleading 0 "left") := by
    unfold OnOneLine
    decide +kernel
  have hright : OnOneLine (misleading 7 "right") := by
    unfold OnOneLine
    decide +kernel
  have hdraw : draw (misleading 0 "left") = draw (misleading 7 "right") := by
    decide +kernel
  have htext := draw_eq (misleading 0 "left")
  exact ⟨hleft, hright, hdraw, htext.trans (by decide +kernel),
    (draw_determines _).2.2.2.2 _ hleft hright hdraw⟩

end GrammarExplorer.Drawing
