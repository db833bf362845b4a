/-
Where the panes show what their cursors are on.

A row that begins with one of the signs that the panes put in front of a text
has this sign for its first cell, in the style of the text (`head?_row`), so a
row tells whether it is that of a cursor. The pane for the tree leaves away as
many lines above as it takes for the cursor to be in it (`scrolled_add_min`).
The pane for the alternatives leaves away none: it shows the option that is
highlighted just if the option is one of the first that there is room for.
-/
import GrammarExplorer.Proofs.Viewer.Cursor
import GrammarExplorer.Proofs.Viewer.Menu
import GrammarExplorer.Viewer.Screen

namespace GrammarExplorer

/-! ## Rows and blocks -/

namespace Canvas

/-- What the rows of the panes begin with. -/
def signs : List Char := [' ', '>', '▾', '▸', '◇', 'ƒ']

/-- A sign stands in one cell, and no sign joins the one before it. -/
theorem signs_apart {c d : Char} (hc : c ∈ signs) (hd : d ∈ signs) :
    c ≠ '\n' ∧ c ≠ '\r' ∧ Text.clusterWidth [c] = 1 ∧ Text.joins [c] d = false := by
  have hall : (signs.all fun c => signs.all fun d =>
      c != '\n' && c != '\r' && Text.clusterWidth [c] == 1 && !Text.joins [c] d) = true := by
    decide +kernel
  have hpair := List.all_eq_true.1 (List.all_eq_true.1 hall c hc) d hd
  simpa [and_assoc] using hpair

/-- What a line has got so far it keeps. -/
theorem exists_textLines_go (s lineRev : List Char) (h : lineRev ≠ []) :
    ∃ rest lines, textLines.go lineRev s = (lineRev.reverse ++ rest) :: lines := by
  fun_induction textLines.go lineRev s with
  | case1 lineRev hempty => exact absurd (List.isEmpty_iff.1 hempty) h
  | case2 lineRev _ => exact ⟨[], [], by simp⟩
  | case3 lineRev rest _ => exact ⟨[], textLines.go [] rest, by simp⟩
  | case4 lineRev rest _ => exact ⟨[], textLines.go [] rest, by simp⟩
  | case5 lineRev c rest _ _ ih =>
    obtain ⟨more, lines, hgo⟩ := ih (by simp)
    exact ⟨c :: more, lines, by simp [hgo]⟩

section Row

variable {text : String} {c d : Char} {rest : List Char}
  (htext : text.toList = c :: d :: rest) (hc : c ∈ signs) (hd : d ∈ signs)

include htext hc hd

/-- A sign in front of another one is a cluster by itself. -/
theorem exists_clusters :
    ∃ clusters, (textLines text).flatMap Text.clusters = [c] :: clusters := by
  obtain ⟨hc1, hc2, -, hjoins⟩ := signs_apart hc hd
  obtain ⟨hd1, hd2, -, -⟩ := signs_apart hd hd
  obtain ⟨more, lines, hgo⟩ := exists_textLines_go rest [d, c] (by simp)
  have hlines : textLines text = (c :: d :: more) :: lines := by
    rw [textLines, htext, textLines.go.eq_4 _ _ _ (fun _ h _ => hc2 h) hc1,
      textLines.go.eq_4 _ _ _ (fun _ h _ => hd2 h) hd1, hgo]
    rfl
  have hclusters : Text.clusters (c :: d :: more) = [c] :: Text.clusters.go [d] more := by
    rw [Text.clusters, Text.clusters.go, Text.joins, Text.clusters.go, hjoins]
    rfl
  exact ⟨_, by rw [hlines, List.flatMap_cons, hclusters, List.cons_append]⟩

/-- So it is in the first cell of a row. -/
theorem head?_row (width : Nat) (filler : Cell) (style : Style) :
    (row (width + 1) filler ⟨text, style⟩).head? = some ⟨[c], style⟩ := by
  obtain ⟨clusters, hclusters⟩ := exists_clusters htext hc hd
  have hone : Text.clusterWidth [c] = 1 := (signs_apart hc hd).2.2.1
  have hfits : ∃ fits, fitting (width + 1) (width + 1) ([c] :: clusters) = [c] :: fits := by
    rw [fitting, hone, if_neg (by omega), if_neg (by omega)]
    exact ⟨_, rfl⟩
  obtain ⟨fits, hfits⟩ := hfits
  have hcells : cellsOf filler style [c] = [⟨[c], style⟩] := by
    rw [cellsOf, hone]
    rfl
  rw [row, hclusters, hfits, List.flatMap_cons, hcells]
  rfl

end Row

/-- A block has a row for each text that there is room for, and empty ones
below. -/
theorem getElem?_block (width height : Nat) (texts : List Styled) (r : Nat) :
    (block width height texts)[r]? = if r < height then
      some (texts[r]?.elim (List.replicate width (space .plain)) (row width (space .plain)))
      else none := by
  rw [block, List.getElem?_append, List.length_map, List.length_take, List.getElem?_map,
    List.getElem?_take, List.getElem?_replicate]
  by_cases hr : r < height
  · by_cases htexts : r < texts.length
    · rw [if_pos (by omega), if_pos hr, if_pos hr, List.getElem?_eq_getElem htexts]
      rfl
    · rw [if_neg (by omega), if_pos (by omega), if_pos hr, List.getElem?_eq_none (by omega)]
      rfl
  · rw [if_neg (by omega), if_neg (by omega), if_neg hr]

theorem map_row_prefix_block {width height : Nat} {texts : List Styled}
    (h : texts.length ≤ height) :
    texts.map (row width (space .plain)) <+: block width height texts := by
  rw [block, List.take_of_length_le h]
  exact List.prefix_append _ _

/-- Whether a text begins with two signs. -/
def StartsWithSigns (text : String) : Prop :=
  ∃ c ∈ signs, ∃ d ∈ signs, ∃ rest, text.toList = c :: d :: rest

/-- Whether a row begins in the given style. -/
def BeginsIn (style : Style) (r : Row) : Prop := r.head?.map (·.style) = some style

/-- The rows of a block that begin in a style that is not the plain one are
those of the texts in this style. -/
theorem exists_beginsIn_block_iff {style : Style} (hstyle : style ≠ .plain) {texts : List Styled}
    (hsigns : ∀ t ∈ texts, StartsWithSigns t.text) {width height r : Nat} :
    (∃ row, (block (width + 1) height texts)[r]? = some row ∧ BeginsIn style row) ↔
      r < height ∧ (texts[r]?).map (·.style) = some style := by
  rw [getElem?_block]
  by_cases hr : r < height
  · simp only [hr, if_true, Option.some.injEq, exists_eq_left', true_and]
    cases ht : texts[r]? with
    | none => simp [BeginsIn, List.replicate_succ, space, hstyle.symm]
    | some t =>
      obtain ⟨c, hc, d, hd, rest, htext⟩ := hsigns t (List.mem_of_getElem? ht)
      simp [BeginsIn, head?_row htext hc hd]
  · simp [hr]

end Canvas

namespace Viewer

open Canvas

variable {v : Viewer}

/-! ## The tree -/

theorem startsWithSigns_outlineText (icons : Bool) (l : OutlineLine) :
    StartsWithSigns (outlineText icons l) := by
  have hfold : ∃ c ∈ signs, (foldSign l).toList = [c] := by
    unfold foldSign
    split
    · exact ⟨' ', by decide, rfl⟩
    · split
      · exact ⟨'▾', by decide, rfl⟩
      · exact ⟨'▸', by decide, rfl⟩
  have hicon : ∃ d ∈ signs, ∃ rest,
      (if icons then l.kind.icon else "").toList ++ [' '] = d :: rest := by
    cases icons with
    | false => exact ⟨' ', by decide, [], rfl⟩
    | true =>
      cases l.kind with
      | category => exact ⟨'◇', by decide, [' '], rfl⟩
      | function => exact ⟨'ƒ', by decide, [' '], rfl⟩
  obtain ⟨c, hc, hfold⟩ := hfold
  obtain ⟨d, hd, rest, hicon⟩ := hicon
  have htext : (outlineText icons l).toList = List.replicate (2 * l.depth) ' ' ++ c :: d :: (rest
      ++ (l.label ++ if l.edited then " *" else "").toList) := by
    rw [← List.cons_append, ← hicon, outlineText]
    simp [hfold]
  cases hdepth : l.depth with
  | zero => exact ⟨c, hc, d, hd, _, by rw [htext, hdepth]; rfl⟩
  | succ depth => exact ⟨' ', by decide, ' ', by decide, _, by rw [htext, hdepth]; rfl⟩

theorem outlineStyle_eq_cursorStyle_iff {selected : Nat} {l : OutlineLine} :
    outlineStyle selected l = cursorStyle ↔ l.id = selected := by
  unfold outlineStyle
  split
  · next hid => simpa using hid
  · next hid =>
    have hne : l.id ≠ selected := by simpa using hid
    refine iff_of_false ?_ hne
    split
    · decide
    · split <;> decide

/-- The scrolled lines and the lines of the pane above the cursor are the lines
of the outline above it. -/
theorem scrolled_add_min (v : Viewer) (height : Nat) :
    v.scrolled (height + 1) + min v.cursorLine height = v.cursorLine := by
  by_cases hfits : height + 1 ≤ v.cursorLine
  · simp only [scrolled, hfits, Nat.zero_lt_succ, decide_true, Bool.and_self, if_true]
    omega
  · simp only [scrolled, hfits, decide_false, Bool.and_false, Bool.false_eq_true, if_false]
    omega

section CursorShown

variable {g : Grammar} {category : String} (h : CursorShown g category v)

include h

theorem CursorShown.getElem?_cursorLine : v.shownIds[v.cursorLine]? = some v.selected := by
  obtain ⟨i, hi⟩ := List.mem_iff_getElem?.1 h.2
  have hindex := (Outline.indexOf?_eq_some_iff h.1.nodup_shownIds).2 hi
  rw [cursorLine, hindex, Option.getD_some]
  exact hi

/-- The cursor is on one line alone. -/
theorem CursorShown.getElem?_shownIds_iff {j : Nat} :
    v.shownIds[j]? = some v.selected ↔ j = v.cursorLine := by
  constructor
  · intro hj
    have hlt : j < v.shownIds.length := (List.getElem?_eq_some_iff.1 hj).1
    exact (List.getElem?_inj hlt h.1.nodup_shownIds).1 (hj.trans h.getElem?_cursorLine.symm)
  · rintro rfl
    exact h.getElem?_cursorLine

theorem CursorShown.cursorLine_lt : v.cursorLine < v.outline.length := by
  have hlt := (List.getElem?_eq_some_iff.1 h.getElem?_cursorLine).1
  rwa [shownIds, List.length_map] at hlt

/-- Scrolling leaves no room in the pane while there are lines to fill it. -/
theorem CursorShown.length_shownLines (height : Nat) :
    (v.shownLines (height + 1)).length = min (height + 1) v.outline.length := by
  have hscrolled := v.scrolled_add_min height
  have hlt := h.cursorLine_lt
  rw [shownLines, List.length_take, List.length_drop]
  omega

/-- The line of the cursor is the last one of the pane, unless nothing is
scrolled. -/
theorem CursorShown.getElem?_shownLines_iff {height r : Nat} :
    ((v.shownLines (height + 1))[r]?).map (·.id) = some v.selected ↔
      r = min v.cursorLine height := by
  have hscrolled := v.scrolled_add_min height
  rw [shownLines, List.getElem?_take]
  split
  · rw [List.getElem?_drop, ← List.getElem?_map]
    refine h.getElem?_shownIds_iff.trans ?_
    omega
  · refine iff_of_false (by simp) ?_
    omega

end CursorShown

theorem shownLines_infix (v : Viewer) (height : Nat) : v.shownLines height <:+: v.outline :=
  (List.take_prefix _ _).isInfix.trans (List.drop_suffix _ _).isInfix

/-- **The cursor stays in the pane for the tree.** Whatever operations led to
the session of a viewer, and whatever keys were pressed since: the cursor is on
one line of the outline. A pane with one row or more shows lines that follow one
another in the outline, as many as it has rows if there are so many; one of them
is that of the cursor, and it is in the row of its place in the outline, or in
the last row if the pane has not so many rows. What is scrolled is not cut off at
zero. The first rows that are drawn are those of these lines, and the row in the
style of the cursor is that of its line alone. -/
theorem tree_pane_pressAll (g : Grammar) (category : String)
    (operations : List Session.Operation) (keys : List Key) (height : Nat) :
    let v := (ofSession ((Session.ofCategory g category).run operations)).pressAll keys
    let shown := v.shownLines (height + 1)
    (∀ j, (v.outline[j]?).map (·.id) = some v.selected ↔ j = v.cursorLine) ∧
    (shown <:+: v.outline ∧ shown.length = min (height + 1) v.outline.length) ∧
    (∀ r, (shown[r]?).map (·.id) = some v.selected ↔ r = min v.cursorLine height) ∧
    ((v.scrolled (height + 1) : Int)
      = if height + 1 ≤ v.cursorLine then (v.cursorLine : Int) + 1 - (height + 1) else 0) ∧
    ∀ icons width,
      (shown.map fun l => row (width + 1) (space .plain)
        ⟨outlineText icons l, outlineStyle v.selected l⟩)
          <+: v.treeBlock icons (width + 1) (height + 1) ∧
      ∀ r, (∃ row, (v.treeBlock icons (width + 1) (height + 1))[r]? = some row ∧
        BeginsIn cursorStyle row) ↔ r = min v.cursorLine height := by
  intro v shown
  have h : CursorShown g category v :=
    pressAll_keeps CursorShown.perform (cursorShown_ofSession g category operations) keys
  refine ⟨fun j => ?_, ⟨v.shownLines_infix _, h.length_shownLines height⟩,
    fun r => h.getElem?_shownLines_iff, ?_, fun icons width => ⟨?_, fun r => ?_⟩⟩
  · rw [← List.getElem?_map]
    exact h.getElem?_shownIds_iff
  · have hscrolled := v.scrolled_add_min height
    split <;> omega
  · have hlength : shown.length ≤ height + 1 := List.length_take_le _ _
    rw [← Function.comp_def (row (width + 1) (space .plain)), ← List.map_map]
    exact map_row_prefix_block (by rwa [List.length_map])
  · rw [treeBlock, exists_beginsIn_block_iff (by decide)]
    · have hstyle : ((shown.map fun l =>
          (⟨outlineText icons l, outlineStyle v.selected l⟩ : Styled))[r]?).map (·.style)
            = some cursorStyle ↔ (shown[r]?).map (·.id) = some v.selected := by
        rw [List.getElem?_map, Option.map_map]
        cases shown[r]? <;> simp [outlineStyle_eq_cursorStyle_iff]
      rw [hstyle, h.getElem?_shownLines_iff]
      omega
    · intro t ht
      obtain ⟨l, -, rfl⟩ := List.mem_map.1 ht
      exact startsWithSigns_outlineText icons l

/-! ## The alternatives -/

theorem startsWithSigns_optionText (highlighted : Bool) (option : String) :
    StartsWithSigns (optionText highlighted option).text := by
  cases highlighted with
  | false => exact ⟨' ', by decide, ' ', by decide, option.toList, by simp [optionText]⟩
  | true => exact ⟨'>', by decide, ' ', by decide, option.toList, by simp [optionText]⟩

theorem optionText_style_eq_cursorStyle_iff {highlighted : Bool} {option : String} :
    (optionText highlighted option).style = cursorStyle ↔ highlighted = true := by
  cases highlighted with
  | false => exact iff_of_false (by decide : Style.plain ≠ cursorStyle) (by decide)
  | true => exact iff_of_true rfl rfl

theorem getElem?_menuTexts (v : Viewer) (m : Menu) (r : Nat) :
    (v.menuTexts m)[r]? = (m.options[r]?).map (optionText (r == v.highlighted)) :=
  List.getElem?_mapIdx

/-- The highlighted option is drawn if it is one of the first for which there
is room. -/
theorem exists_beginsIn_menuBlock_iff {m : Menu} (hmenu : v.menu = some m)
    (hlt : v.highlighted < m.options.length) {width height r : Nat} :
    (∃ row, (v.menuBlock (width + 1) height)[r]? = some row ∧ BeginsIn cursorStyle row) ↔
      r = v.highlighted ∧ v.highlighted < height := by
  rw [menuBlock, hmenu, exists_beginsIn_block_iff (by decide)]
  · rw [getElem?_menuTexts, Option.map_map]
    by_cases hr : r = v.highlighted
    · subst hr
      simp [List.getElem?_eq_getElem hlt, optionText_style_eq_cursorStyle_iff]
    · cases m.options[r]? <;> simp [hr, optionText_style_eq_cursorStyle_iff]
  · intro t ht
    obtain ⟨i, -, rfl⟩ := List.mem_mapIdx.1 ht
    exact startsWithSigns_optionText _ _

/-- **The highlighted option may be below the pane.** On any session, after any
keys: "enter" in a menu chooses the highlighted option, and the pane for the
alternatives shows the options from the first one on, one in a row, as far as it
has rows. The highlighted one has a row, the only one in the style of the
cursor, just if its place among the options is smaller than the number of rows;
the pane is not scrolled for it. -/
theorem menu_pane_pressAll (s : Session) (keys : List Key) :
    let v := (ofSession s).pressAll keys
    ∀ m, v.menu = some m → ∃ chosen, m.options[v.highlighted]? = some chosen ∧
      (∀ k, k.code = .enter → v.request? k = some (.choose m.node chosen)) ∧
      ∀ width height,
        (∀ r option, r < height → m.options[r]? = some option →
          (v.menuBlock width height)[r]? = some (row width (space .plain)
            (optionText (r == v.highlighted) option))) ∧
        ∀ r, (∃ row, (v.menuBlock (width + 1) height)[r]? = some row ∧
          BeginsIn cursorStyle row) ↔ r = v.highlighted ∧ v.highlighted < height := by
  intro v m hmenu
  have h : MenuInOrder v := pressAll_keeps MenuInOrder.perform (menuInOrder_ofSession s) keys
  have hfocus : v.focus = .alternatives := h.focus.2 (by rw [hmenu]; rfl)
  have hlt : v.highlighted < m.options.length := (h.menu m hmenu).2.2
  refine ⟨_, List.getElem?_eq_getElem hlt, fun k hk => ?_, fun width height =>
    ⟨fun r option hr hoption => ?_, fun r => exists_beginsIn_menuBlock_iff hmenu hlt⟩⟩
  · simp [request?, Key.isQuit, hk, hfocus, menuRequest?, hmenu, hlt]
  · rw [menuBlock, hmenu, getElem?_block, if_pos hr, getElem?_menuTexts, hoption]
    rfl

/-- Two functions for one category. -/
def choiceGrammar : Grammar where
  abstractGrammar := ⟨"", "S", [⟨"f", "S", []⟩, ⟨"g", "S", []⟩]⟩
  concretes := []
  diagnostics := []

/-- One key down in the menu: the second row of a pane with two rows is that of
the cursor. -/
theorem menu_pane_choice :
    let v := (ofSession (.ofGrammar choiceGrammar)).pressAll [.plain .enter, .plain .down]
    v.menu = some ⟨0, ["f", "g"]⟩ ∧ v.highlighted = 1 ∧
      ∀ width r, (∃ row, (v.menuBlock (width + 1) 2)[r]? = some row ∧
        BeginsIn cursorStyle row) ↔ r = v.highlighted ∧ v.highlighted < 2 := by
  intro v
  have hmenu : v.menu = some ⟨0, ["f", "g"]⟩ := by decide +kernel
  have hhighlighted : v.highlighted = 1 := by decide +kernel
  obtain ⟨-, -, -, hrows⟩ := menu_pane_pressAll (.ofGrammar choiceGrammar)
    [.plain .enter, .plain .down] ⟨0, ["f", "g"]⟩ hmenu
  exact ⟨hmenu, hhighlighted, fun width => (hrows width 2).2⟩

/-- A pane with one row shows the first option, while "enter" chooses the
second. -/
theorem highlighted_option_not_drawn :
    let v := (ofSession (.ofGrammar choiceGrammar)).pressAll [.plain .enter, .plain .down]
    v.menu = some ⟨0, ["f", "g"]⟩ ∧
      v.request? (.plain .enter) = some (.choose 0 "g") ∧
      (v.menuBlock 28 1).map rowText = ["  f                         "] := by
  decide +kernel

end Viewer

end GrammarExplorer
