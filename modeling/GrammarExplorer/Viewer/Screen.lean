/-
The viewer's screen: a title, the panes for the tree and for the
alternatives next to one another, and a status line.
-/
import GrammarExplorer.Settings.Basic
import GrammarExplorer.Viewer.Basic
import GrammarExplorer.Viewer.Canvas

namespace GrammarExplorer.Viewer

open Canvas

/-- On a narrower screen the panes are no use. -/
def leastWidth : Nat := 50

def keyHints : String :=
  "↑↓ move  ←→ fold  ⏎ alternatives  r reset  R reset all  l language  q quit"

def menuHint : String := "Enter on a category lists its alternatives"

/-! ## Styles -/

def warningStyle : Style := ⟨.red, .reset, .bold⟩

def titleStyle : Style := ⟨.black, .cyan, .bold⟩

def statusStyle : Style := ⟨.white, .darkGray, .normal⟩

def hintStyle : Style := ⟨.darkGray, .reset, .normal⟩

/-- What the cursor is on. -/
def cursorStyle : Style := ⟨.white, .blue, .bold⟩

def editedStyle : Style := ⟨.yellow, .reset, .normal⟩

/-- A node with something below it that is not shown. -/
def foldedStyle : Style := ⟨.gray, .reset, .dim⟩

/-! ## The tree -/

/-- The sign for what is below a node: shown, hidden, or nothing. -/
def foldSign (l : OutlineLine) : String :=
  if !l.hasChildren then " " else if l.isOpen then "▾" else "▸"

def outlineText (showIcons : Bool) (l : OutlineLine) : String :=
  String.ofList (List.replicate (2 * l.depth) ' ') ++ foldSign l
    ++ (if showIcons then l.kind.icon else "") ++ " " ++ l.label
    ++ (if l.edited then " *" else "")

def outlineStyle (selected : Nat) (l : OutlineLine) : Style :=
  if l.id == selected then cursorStyle
  else if l.edited then editedStyle
  else if !l.isOpen && l.hasChildren then foldedStyle
  else .plain

variable (v : Viewer)

/-- The line of the outline that the cursor is on; the first if it is on
none. -/
def cursorLine : Nat := (Outline.indexOf? v.outline v.selected).getD 0

/-- How many lines of the outline stay above the pane, so that the cursor is
in it. -/
def scrolled (height : Nat) : Nat :=
  if 0 < height && height ≤ v.cursorLine then v.cursorLine + 1 - height else 0

/-- The lines of the outline that the pane shows. -/
def shownLines (height : Nat) : List OutlineLine :=
  (v.outline.drop (v.scrolled height)).take height

/-- The inside of the pane for the tree. -/
def treeBlock (showIcons : Bool) (width height : Nat) : List Row :=
  block width height <| (v.shownLines height).map fun l =>
    ⟨outlineText showIcons l, outlineStyle v.selected l⟩

/-! ## The alternatives -/

/-- An option of the menu, marked if it is the highlighted one. -/
def optionText (highlighted : Bool) (option : String) : Styled :=
  if highlighted then ⟨"> " ++ option, cursorStyle⟩ else ⟨"  " ++ option, .plain⟩

/-- The lines of the menu. -/
def menuTexts (menu : Menu) : List Styled :=
  menu.options.mapIdx fun i option => optionText (i == v.highlighted) option

/-- The inside of the pane for the alternatives. -/
def menuBlock (width height : Nat) : List Row :=
  match v.menu with
  | none => notice width height ⟨menuHint, hintStyle⟩
  | some menu => block width height (v.menuTexts menu)

/-! ## The whole screen -/

def paneTitle (name : String) (focused : Bool) : String :=
  if focused then name ++ " [FOCUSED]" else name

/-- The panes next to one another. The one for the tree has its own width as
far as one column stays for the other. -/
def panes (settings : ViewerSettings) (width height : Nat) : List Row :=
  let treeWidth := min settings.treeWidth (width - 1)
  let menuWidth := width - treeWidth
  beside
    (pane treeWidth height (paneTitle "Tree" (v.focus == .tree))
      (v.treeBlock settings.showIcons (treeWidth - 2) (height - 2)))
    (pane menuWidth height (paneTitle "Alternatives" (v.focus == .alternatives))
      (v.menuBlock (menuWidth - 2) (height - 2)))

def titleText (fileName : String) : String :=
  "treevis:: " ++ fileName ++ " [" ++ v.modeText ++ "]"

/-- The message, or what the keys do if there is none. -/
def statusText : String := if v.status == "" then keyHints else v.status

/-- The rows of a screen of a given size. On a screen of few rows the panes
come first, then the title. -/
def screen (settings : ViewerSettings) (fileName : String) (width height : Nat) : List Row :=
  if width < leastWidth then
    notice width height
      ⟨"Terminal too narrow: " ++ toString width ++ " < " ++ toString leastWidth ++ " chars",
        warningStyle⟩
  else
    let title := bar width ⟨v.titleText fileName, titleStyle⟩
    let status := bar width ⟨v.statusText, statusStyle⟩
    match height with
    | 0 => []
    | 1 => v.panes settings width 1
    | 2 => title :: v.panes settings width 1
    | height + 2 => title :: v.panes settings width height ++ [status]

end GrammarExplorer.Viewer
