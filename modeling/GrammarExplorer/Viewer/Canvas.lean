/-
Rows of cells, each with a character and a style. Blocks of rows are put
together side by side and one below the other, and every row of a block has
the width of the block.
-/
import GrammarExplorer.Text.Width

namespace GrammarExplorer.Canvas

inductive Color
  | reset
  | black
  | red
  | yellow
  | blue
  | cyan
  | gray
  | darkGray
  | white
  deriving Repr, DecidableEq

inductive Weight
  | normal
  | bold
  | dim
  deriving Repr, DecidableEq

structure Style where
  foreground : Color
  background : Color
  weight : Weight
  deriving Repr, DecidableEq

def Style.plain : Style := ⟨.reset, .reset, .normal⟩

/-- One place of a row. A cluster that takes two places stands in the first
of them. -/
structure Cell where
  cluster : List Char
  style : Style
  deriving Repr, DecidableEq

abbrev Row := List Cell

/-- A text in one style. -/
structure Styled where
  text : String
  style : Style
  deriving Repr, DecidableEq

/-- The lines of a text. A line ends with a line feed or with a carriage
return and a line feed. -/
def textLines (s : String) : List (List Char) :=
  go [] s.toList
where
  go (lineRev : List Char) : List Char → List (List Char)
    | [] => if lineRev.isEmpty then [] else [lineRev.reverse]
    | '\r' :: '\n' :: rest => lineRev.reverse :: go [] rest
    | '\n' :: rest => lineRev.reverse :: go [] rest
    | c :: rest => go (c :: lineRev) rest

/-- The clusters at the beginning of a line that fit into a room. One that is
wider than the whole row is passed over. -/
def fitting (width room : Nat) : List (List Char) → List (List Char)
  | [] => []
  | c :: rest =>
    let w := Text.clusterWidth c
    if width < w then fitting width room rest
    else if room < w then []
    else c :: fitting width (room - w) rest

/-- The cells of a cluster; those behind the first are filled. -/
def cellsOf (filler : Cell) (style : Style) (cluster : List Char) : Row :=
  match Text.clusterWidth cluster with
  | 0 => []
  | more + 1 => ⟨cluster, style⟩ :: List.replicate more filler

/-- A row with a text at its beginning, cut where the row ends, and filled
up. Line ends in the text take no room. -/
def row (width : Nat) (filler : Cell) (t : Styled) : Row :=
  let clusters := (textLines t.text).flatMap Text.clusters
  let cells := (fitting width width clusters).flatMap (cellsOf filler t.style)
  cells ++ List.replicate (width - cells.length) filler

def space (style : Style) : Cell := ⟨[' '], style⟩

/-- A row on its own, of which the style is that of the text. Of a longer
text it is the first line. -/
def bar (width : Nat) (t : Styled) : Row :=
  row width (space t.style) ⟨String.ofList ((textLines t.text).headD []), t.style⟩

/-- Rows with a text each, from the top, in a block of a given size. -/
def block (width height : Nat) (texts : List Styled) : List Row :=
  let rows := (texts.take height).map (row width (space .plain))
  rows ++ List.replicate (height - rows.length) (List.replicate width (space .plain))

/-- A block in one style with a text in its first row. -/
def notice (width height : Nat) (t : Styled) : List Row :=
  match height with
  | 0 => []
  | height + 1 => bar width t :: List.replicate height (List.replicate width (space t.style))

def line (c : Char) : Cell := ⟨[c], .plain⟩

/-- One row of a frame: what is in between, and the two ends. Of the ends
the left one comes first if there is room for one only. -/
def framed (width : Nat) (left right : Char) (between : Row) : Row :=
  match width with
  | 0 => []
  | 1 => [line left]
  | _ => line left :: between ++ [line right]

/-- A frame around a block that is two smaller both ways, with a title in
its upper edge. -/
def pane (width height : Nat) (title : String) (inside : List Row) : List Row :=
  let top := framed width '┌' '┐' (row (width - 2) (line '─') ⟨title, .plain⟩)
  let bottom := framed width '└' '┘' (List.replicate (width - 2) (line '─'))
  match height with
  | 0 => []
  | 1 => [top]
  | _ => top :: inside.map (framed width '│' '│') ++ [bottom]

/-- Blocks of the same height next to one another. -/
def beside (left right : List Row) : List Row := List.zipWith (· ++ ·) left right

/-- The characters of a row. -/
def rowText (r : Row) : String := String.ofList (r.flatMap (·.cluster))

end GrammarExplorer.Canvas
