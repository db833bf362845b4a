/-
What a snapshot shows, and how one is made in a loop.

A snapshot of a node shows the node, and below it the snapshots of its
children (`ofNode_eq`). It can be made without recursion: a walk with a stack
lists the nodes, and on the way back through the list each node takes the
snapshots of its children out of a table and leaves its own there
(`gathered`). Before every turn the table has the snapshots of those nodes
passed whose parents are still to come (`Pending`). So whatever a node looks
for is there, none but its parent can take it, and in the end one snapshot is
left (`gathered_eq`).
-/
import GrammarExplorer.Proofs.Derivation.Arena
import GrammarExplorer.Proofs.Session.Integrity
import Mathlib.Data.Finmap
import Mathlib.Data.Set.Card
import Mathlib.Order.Interval.Finset.Nat

namespace GrammarExplorer

namespace DerivationTree

variable {t : DerivationTree} {r : Rose Role}

/-- A walk that is over takes no more turns. -/
theorem walkTurns_of_le {turns more : Nat} {stack met : List Nat}
    (h : t.walkTurns turns stack = (met, [])) (hle : turns ≤ more) :
    t.walkTurns more stack = (met, []) := by
  induction turns generalizing stack met more with
  | zero =>
    simp only [walkTurns, Prod.mk.injEq] at h
    obtain ⟨rfl, rfl⟩ := h
    cases more <;> rfl
  | succ turns ih =>
    obtain ⟨more, rfl⟩ : ∃ k, more = k + 1 := ⟨more - 1, by omega⟩
    cases stack with
    | nil => exact h
    | cons id rest =>
      obtain ⟨rest', left, hrest⟩ : ∃ rest' left, t.walkTurns turns (t.children id ++ rest)
        = (rest', left) := ⟨_, _, rfl⟩
      rw [walkTurns, hrest] at h
      simp only [Prod.mk.injEq] at h
      obtain ⟨rfl, rfl⟩ := h
      rw [walkTurns, ih hrest (by omega)]

theorem reaches_original (t : DerivationTree) : t.original.Reaches = t.Reaches := by
  unfold Reaches
  simp only [children_original]

section OfRose

variable (h : t.original = ofRose r)

include h

theorem mem_children_iff_parent? {id child : Nat} :
    child ∈ t.children id ↔ t.parent? child = some id := by
  rw [← children_original, ← parent?_original, h, mem_children_ofRose]

theorem lt_of_mem_children {id child : Nat} (hc : child ∈ t.children id) :
    id < child ∧ child < t.size := by
  rw [← children_original, h] at hc
  rw [← size_original, h]
  exact isProper_ofRose hc

theorem nodup_children (id : Nat) : (t.children id).Nodup := by
  rw [← children_original, h]
  exact (pairwise_children_ofRose r id).imp Nat.ne_of_lt

/-- The part of a tree below a node fills a piece of the table, which the walk
goes through from first to last. -/
theorem exists_reaches_iff {id : Nat} (hid : id < t.size) : ∃ stop ≤ t.size,
    (∀ x, t.Reaches id x ↔ id ≤ x ∧ x < stop) ∧
    (∀ turns, stop - id ≤ turns → t.walkTurns turns [id] = (List.range' id (stop - id), [])) ∧
    t.walkFrom id = List.range' id (stop - id) := by
  rw [← size_original, h] at hid
  obtain ⟨above, s, hs, -⟩ := exists_holds_ofRose r hid
  refine ⟨id + s.size, ?_, fun x => ?_, fun turns hturns => ?_, ?_⟩
  · rw [← size_original, h]
    exact hs.bound
  · rw [← reaches_original, h]
    exact hs.reaches_iff
  · rw [Nat.add_sub_cancel_left] at hturns ⊢
    refine walkTurns_of_le ?_ hturns
    rw [walkTurns_congr (u := ofRose r) fun x => by rw [← h, children_original]]
    exact hs.walkTurns
  · rw [Nat.add_sub_cancel_left, walkFrom, ← walkOnto_mapNodes Node.children_original]
    show t.original.walkOnto [] id = _
    rw [h, hs.walkOnto, List.append_nil]

end OfRose

end DerivationTree

namespace Snapshot

open DerivationTree

variable {t : DerivationTree} {r : Rose Role}

theorem ofNode_outside {id : Nat} (hid : t.size ≤ id) : ofNode t id = .node (emptyEntry id) [] := by
  have hnone : t.node? id = none := by
    rw [← Option.not_isSome_iff_eq_none, isSome_node?, contains, decide_eq_true_iff]
    omega
  rw [ofNode, hnone]

/-- A snapshot shows a node, and below it its children. -/
theorem ofNode_eq (h : t.original = ofRose r) {id : Nat} {n : Node} (hn : t.node? id = some n) :
    ofNode t id = .node (entryOf id n) ((t.children id).map (ofNode t)) := by
  have hproper : ∀ child ∈ t.children id, t.isProper id child = true := by
    intro child hc
    rw [isProper, Bool.and_eq_true, decide_eq_true_iff, decide_eq_true_iff]
    exact lt_of_mem_children h hc
  rw [ofNode, hn]
  simp only
  rw [foldr_guarded hproper, List.foldr_cons_eq_append, List.append_nil]

/-- Whatever there is in a snapshot is the snapshot of a node. -/
theorem exists_of_at? (h : t.original = ofRose r) {address : List Nat} {id : Nat} {s : Snapshot}
    (hs : (ofNode t id).at? address = some s) : ∃ x, s = ofNode t x := by
  induction address generalizing id with
  | nil =>
    cases hs
    exact ⟨id, rfl⟩
  | cons i address ih =>
    by_cases hid : id < t.size
    · obtain ⟨n, hn⟩ := exists_node? hid
      rw [ofNode_eq h hn, Rose.at?, Rose.children, List.getElem?_map, Option.bind_map,
        Option.bind_eq_some_iff] at hs
      obtain ⟨child, -, hs⟩ := hs
      exact ih hs
    · rw [ofNode_outside (Nat.not_lt.1 hid)] at hs
      cases hs

theorem hasChildren_iff (h : t.original = ofRose r) {address : List Nat} {id : Nat} {s : Snapshot}
    (hs : (ofNode t id).at? address = some s) :
    s.label.hasChildren = true ↔ s.children ≠ [] := by
  obtain ⟨x, rfl⟩ := exists_of_at? h hs
  by_cases hx : x < t.size
  · obtain ⟨n, hn⟩ := exists_node? hx
    rw [ofNode_eq h hn, children_eq hn]
    simp [Rose.label, Rose.children, entryOf, Node.hasChildren]
  · rw [ofNode_outside (Nat.not_lt.1 hx)]
    simp [Rose.label, Rose.children, emptyEntry]

/-- A snapshot shows what lies below its node, in the order of the ids, and
the number of nodes is the number of what it shows. -/
theorem count_ofNode (h : t.original = ofRose r) {id : Nat} (hid : id < t.size) :
    (∀ x, t.Reaches id x ↔ id ≤ x ∧ x < id + count (ofNode t id)) ∧
      (ofNode t id).preorder.map (·.id) = List.range' id (count (ofNode t id)) ∧
      id + count (ofNode t id) ≤ t.size := by
  obtain ⟨stop, hstop, hreaches, -, hwalk⟩ := exists_reaches_iff h hid
  have hids : (ofNode t id).preorder.map (·.id) = List.range' id (stop - id) := by
    rw [← hwalk, walkFrom, ← ids_ofNode, List.append_nil]
  have hcount : count (ofNode t id) = stop - id := by
    have hlength := congrArg List.length hids
    rw [List.length_map, Rose.length_preorder, List.length_range'] at hlength
    exact hlength
  have hself : id < stop := ((hreaches id).1 .refl).2
  have hend : id + (stop - id) = stop := by omega
  rw [hcount, hend]
  exact ⟨hreaches, hids, hstop⟩

theorem ncard_reaches (h : t.original = ofRose r) {id : Nat} (hid : id < t.size) :
    {x | t.Reaches id x}.ncard = count (ofNode t id) := by
  obtain ⟨hreaches, -⟩ := count_ofNode h hid
  have hset : {x | t.Reaches id x} = Set.Ico id (id + count (ofNode t id)) :=
    Set.ext hreaches
  rw [hset, ← Finset.coe_Ico, Set.ncard_coe_finset, Nat.card_Ico, Nat.add_sub_cancel_left]

/-! ## Counting in a loop -/

/-- A count with a stack, for so many turns: the snapshots met so far, and the
stack it leaves. -/
def countTurns : Nat → Nat → List Snapshot → Nat × List Snapshot
  | 0, total, stack => (total, stack)
  | _ + 1, total, [] => (total, [])
  | turns + 1, total, s :: rest => countTurns turns (total + 1) (s.children.reverse ++ rest)

/-- One turn for each of the nodes on the stack empties it. -/
theorem countTurns_eq {turns : Nat} : ∀ (total : Nat) {stack : List Snapshot},
    Rose.sizeAll stack = turns → countTurns turns total stack = (total + turns, []) := by
  induction turns with
  | zero =>
    intro total stack hturns
    cases stack with
    | nil => rfl
    | cons s rest =>
      rw [Rose.sizeAll, Rose.size_eq] at hturns
      omega
  | succ turns ih =>
    intro total stack hturns
    cases stack with
    | nil => cases hturns
    | cons s rest =>
      have hrest : Rose.sizeAll (s.children.reverse ++ rest) = turns := by
        rw [Rose.sizeAll, Rose.size_eq] at hturns
        rw [Rose.sizeAll_append, Rose.sizeAll_reverse]
        omega
      rw [countTurns, ih _ hrest]
      congr 1
      omega

theorem countTurns_count (s : Snapshot) : countTurns s.count 0 [s] = (s.count, []) := by
  have hturns : Rose.sizeAll [s] = s.count := by
    rw [Rose.sizeAll, Rose.sizeAll, count, Nat.add_zero]
  rw [countTurns_eq 0 hturns, Nat.zero_add]

/-! ## Making snapshots in a loop -/

/-- Snapshots that wait for their parents, by the ids of their nodes. -/
abbrev Finished := Finmap fun _ : Nat => Snapshot

/-- Takes the snapshots of some nodes out of a table, as far as they are
there. -/
def take (finished : Finished) : List Nat → List Snapshot × Finished
  | [] => ([], finished)
  | id :: ids =>
    let (found, left) := finished.extract id
    let (others, left) := take left ids
    (found.toList ++ others, left)

/-- Makes the snapshot of a node from those of its children in the table, in
their place. -/
def finish (t : DerivationTree) (id : Nat) (finished : Finished) : Finished :=
  match t.node? id with
  | none => finished
  | some n =>
    let (children, left) := take finished n.children
    left.insert id (.node (entryOf id n) children)

/-- Makes the snapshots of some nodes, from the last one to the first. -/
def finishAll (t : DerivationTree) (ids : List Nat) : Finished := ids.foldr (finish t) ∅

/-- The snapshot of a part of a tree, made on the way back from a walk with a
stack, and what is left in the table then. -/
def gathered (t : DerivationTree) (id : Nat) : Snapshot × Finished :=
  if t.contains id then
    let (found, left) := (finishAll t (t.walkTurns t.size [id]).1).extract id
    (found.getD (.node (emptyEntry id) []), left)
  else (.node (emptyEntry id) [], ∅)

theorem take_cons (finished : Finished) (id : Nat) (ids : List Nat) : take finished (id :: ids)
    = ((finished.lookup id).toList ++ (take (finished.erase id) ids).1,
        (take (finished.erase id) ids).2) := by
  rw [take, Finmap.extract_eq_lookup_erase]

/-- All that is looked for is taken once, and nothing else. -/
theorem take_eq {ids : List Nat} (hids : ids.Nodup) (finished : Finished) :
    (take finished ids).1 = ids.filterMap finished.lookup ∧
      ∀ y, (take finished ids).2.lookup y = if y ∈ ids then none else finished.lookup y := by
  induction ids generalizing finished with
  | nil => simp [take]
  | cons id ids ih =>
    rw [List.nodup_cons] at hids
    obtain ⟨hothers, hleft⟩ := ih hids.2 (finished.erase id)
    have hsame : ids.filterMap (finished.erase id).lookup = ids.filterMap finished.lookup :=
      List.filterMap_congr fun y hy =>
        Finmap.lookup_erase_ne (ne_of_mem_of_not_mem hy hids.1)
    rw [take_cons]
    refine ⟨?_, fun y => ?_⟩
    · rw [List.filterMap_cons, hothers, hsame]
      cases finished.lookup id <;> rfl
    · rw [hleft]
      by_cases hy : y = id
      · subst hy
        simp [Finmap.lookup_erase]
      · simp [hy, Finmap.lookup_erase_ne hy]

/-- Whether a table has, of the nodes between two places, the snapshots of
those whose parents stand before both, and nothing else. -/
def Pending (t : DerivationTree) (start stop : Nat) (finished : Finished) : Prop :=
  ∀ y s, finished.lookup y = some s ↔
    start ≤ y ∧ y < stop ∧ (∀ p, t.parent? y = some p → p < start) ∧ s = ofNode t y

/-- One turn: the children of the node are there, all of them, and are taken. -/
theorem Pending.finish (h : t.original = ofRose r) {x stop : Nat} {finished : Finished}
    (hpending : Pending t (x + 1) stop finished) (hx : x < stop) (hstop : stop ≤ t.size)
    (hbelow : ∀ child ∈ t.children x, child < stop) :
    Pending t x stop (finish t x finished) := by
  obtain ⟨n, hn⟩ := exists_node? (Nat.lt_of_lt_of_le hx hstop)
  obtain ⟨hfound, hleft⟩ := take_eq (nodup_children h x) finished
  have hchildren : ∀ child ∈ t.children x, finished.lookup child = some (ofNode t child) := by
    intro child hc
    rw [hpending]
    refine ⟨(lt_of_mem_children h hc).1, hbelow child hc, fun p hp => ?_, rfl⟩
    rw [(mem_children_iff_parent? h).1 hc, Option.some.injEq] at hp
    omega
  have hmade : (take finished n.children).1 = (t.children x).map (ofNode t) := by
    rw [← children_eq hn, hfound, List.filterMap_congr hchildren]
    simp
  have hfinish : Snapshot.finish t x finished
      = (take finished n.children).2.insert x (ofNode t x) := by
    rw [Snapshot.finish, hn, ofNode_eq h hn, ← hmade]
  intro y s
  rw [hfinish, ← children_eq hn]
  by_cases hyx : y = x
  · subst hyx
    rw [Finmap.lookup_insert, Option.some.injEq]
    constructor
    · rintro rfl
      refine ⟨Nat.le_refl y, hx, fun p hp => ?_, rfl⟩
      exact (lt_of_mem_children h ((mem_children_iff_parent? h).2 hp)).1
    · rintro ⟨-, -, -, rfl⟩
      rfl
  · rw [Finmap.lookup_insert_of_ne _ hyx, hleft, Option.ite_none_left_eq_some, hpending,
      mem_children_iff_parent? h]
    constructor
    · rintro ⟨hnot, hlt, hy, hparent, rfl⟩
      refine ⟨by omega, hy, fun p hp => ?_, rfl⟩
      have hne : p ≠ x := fun hpx => hnot (hpx ▸ hp)
      have := hparent p hp
      omega
    · rintro ⟨hle, hy, hparent, rfl⟩
      refine ⟨fun hp => Nat.lt_irrefl x (hparent x hp), by omega, hy, fun p hp => ?_, rfl⟩
      have := hparent p hp
      omega

theorem pending_finishAll (h : t.original = ofRose r) {start stop : Nat} (hstop : stop ≤ t.size)
    (hbelow : ∀ x, start ≤ x → x < stop → ∀ child ∈ t.children x, child < stop)
    (hle : start ≤ stop) :
    Pending t start stop (finishAll t (List.range' start (stop - start))) := by
  induction hk : stop - start generalizing start with
  | zero =>
    intro y s
    simp only [List.range'_zero, finishAll, List.foldr_nil, Finmap.lookup_empty]
    constructor
    · intro hs
      cases hs
    · omega
  | succ k ih =>
    rw [List.range'_succ, finishAll, List.foldr_cons]
    have hrest := ih (fun x (hx : start + 1 ≤ x) => hbelow x (by omega)) (by omega) (by omega)
    exact hrest.finish h (by omega) hstop (hbelow start (Nat.le_refl _) (by omega))

/-- What the loop makes is the snapshot, and nothing is left over. -/
theorem gathered_eq (h : t.original = ofRose r) (id : Nat) : gathered t id = (ofNode t id, ∅) := by
  by_cases hid : id < t.size
  · obtain ⟨stop, hstop, hreaches, hwalk, -⟩ := exists_reaches_iff h hid
    have hself : id < stop := ((hreaches id).1 .refl).2
    have hpending : Pending t id stop (finishAll t (List.range' id (stop - id))) := by
      refine pending_finishAll h hstop (fun x hx hlt child hc => ?_) (Nat.le_of_lt hself)
      exact ((hreaches child).1 (((hreaches x).2 ⟨hx, hlt⟩).tail hc)).2
    have hroot : (finishAll t (List.range' id (stop - id))).lookup id = some (ofNode t id) := by
      rw [hpending]
      refine ⟨Nat.le_refl id, hself, fun p hp => ?_, rfl⟩
      exact (lt_of_mem_children h ((mem_children_iff_parent? h).2 hp)).1
    have hleft : (finishAll t (List.range' id (stop - id))).erase id = ∅ := by
      refine Finmap.ext_lookup fun y => ?_
      by_cases hy : y = id
      · rw [hy, Finmap.lookup_erase, Finmap.lookup_empty]
      -- Any other node has its parent among those of the walk.
      · rw [Finmap.lookup_erase_ne hy, Finmap.lookup_empty, Option.eq_none_iff_forall_ne_some]
        intro s hs
        obtain ⟨hle, hlt, hparent, -⟩ := (hpending y s).1 hs
        obtain hself | ⟨p, hp, hc⟩ := Relation.ReflTransGen.cases_tail ((hreaches y).2 ⟨hle, hlt⟩)
        · exact hy hself
        · have hbefore := hparent p ((mem_children_iff_parent? h).1 hc)
          have := ((hreaches p).1 hp).1
          omega
    rw [gathered, contains, decide_eq_true hid, if_pos rfl, hwalk t.size (by omega),
      Finmap.extract_eq_lookup_erase, hroot, hleft]
    rfl
  · rw [gathered, contains, decide_eq_false hid, ofNode_outside (Nat.not_lt.1 hid)]
    rfl

/-- **Snapshots.** Of the tree of a session in any state: the snapshot of a
node shows its label, name and kind, whether it was edited and whether it has
children, and below it the snapshots of its children in their order; outside
the tree there is nothing to show. The snapshot of the tree shows each node
once, in the order of the ids, and any other one what can be reached from its
node by going down; the number of nodes is the number of these. Wherever one
looks in a snapshot, it says of a node that it has children just if it shows
any. The loop that goes through a walk backwards with a table makes the same
snapshots, and takes all that it has put into the table; the loop with a stack
counts the same number. -/
theorem snapshot_run (g : Grammar) (category : String) (operations : List Session.Operation) :
    let t := ((Session.ofCategory g category).run operations).tree
    ((∀ id n, t.node? id = some n → ofNode t id
        = .node ⟨id, n.label, n.name, n.kind, n.isEdited, n.hasChildren⟩
          ((t.children id).map (ofNode t))) ∧
      ∀ id, t.size ≤ id → ofNode t id = .node (emptyEntry id) []) ∧
    ((ofTree t).preorder.map (·.id) = List.range t.size ∧ count (ofTree t) = t.size) ∧
    (∀ id < t.size,
      (ofNode t id).preorder.map (·.id) = List.range' id (count (ofNode t id)) ∧
      (∀ x, t.Reaches id x ↔ id ≤ x ∧ x < id + count (ofNode t id)) ∧
      {x | t.Reaches id x}.ncard = count (ofNode t id)) ∧
    (∀ id address s, (ofNode t id).at? address = some s →
      (s.label.hasChildren = true ↔ s.children ≠ [])) ∧
    (∀ id, gathered t id = (ofNode t id, ∅)) ∧
    ∀ s, countTurns (count s) 0 [s] = (count s, []) := by
  intro t
  have h : t.original = ofRose (Expansion.ofCategory g.abstractGrammar category) :=
    Session.original_run_ofCategory g category operations
  have hids : (ofTree t).preorder.map (·.id) = List.range t.size := by
    rw [ids_ofTree, Session.walk_run_ofCategory]
  refine ⟨⟨fun id n => ofNode_eq h, fun id => ofNode_outside⟩, ⟨hids, ?_⟩, fun id hid => ?_,
    fun id address s => hasChildren_iff h, gathered_eq h, countTurns_count⟩
  · have hlength := congrArg List.length hids
    rw [List.length_map, Rose.length_preorder, List.length_range] at hlength
    exact hlength
  · obtain ⟨hreaches, hbelow, -⟩ := count_ofNode h hid
    exact ⟨hbelow, hreaches, ncard_reaches h hid⟩

end Snapshot

end GrammarExplorer
