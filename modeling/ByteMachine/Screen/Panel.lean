/-
Panels: boxes with a title and a list of items inside. An item has one or more lines and is shown only when all of them
fit; the first item that does not fit, and what follows it, is left out. Lines are cut at the inner width.

Contents:
- `Item`, `Panel`: what a panel shows;
- `fitting`: the items that fit a height;
- `Panel.render`: the rows of cells.

Main statement: `length_innerRows` (between its borders a panel is as high as it is asked to be).
-/
import ByteMachine.Screen.Cell

namespace ByteMachine

/-- lines that belong together; the style covers their whole rows -/
structure Item where
  lines : List Line
  style : Style := .plain
  deriving DecidableEq, Repr

/-- an item of one line -/
def Item.ofLine (l : Line) : Item :=
  { lines := [l] }

def Item.height (i : Item) : Nat :=
  i.lines.length

structure Panel where
  title : String
  /-- the colour of the border and the title -/
  border : Option Colour := none
  /-- the colour of the cells that have none of their own -/
  base : Option Colour := none
  items : List Item
  deriving DecidableEq, Repr

/-- the items from the first one on that fit the height together -/
def fitting : Nat → List Item → List Item
  | _, [] => []
  | height, i :: is => if i.height ≤ height then i :: fitting (height - i.height) is else []

/-- the cells cut to the width, or filled up to it -/
def fitWidth (width : Nat) (fill : Cell) (cells : List Cell) : List Cell :=
  cells.take width ++ List.replicate (width - cells.length) fill

/-- the rows of an item on this style -/
def Item.rows (under : Style) (width : Nat) (i : Item) : List (List Cell) :=
  let style := i.style.covering under
  i.lines.map fun l => fitWidth width ⟨' ', style⟩ (l.flatMap (Span.cells style))

namespace Panel

def baseStyle (p : Panel) : Style :=
  { colour := p.base }

def borderStyle (p : Panel) : Style :=
  Style.covering { colour := p.border } p.baseStyle

/-- the title on one line -/
def titleChars (p : Panel) : List Char :=
  (Text.lines p.title.toList).flatten

/-- the rows between the borders -/
def innerRows (p : Panel) (width height : Nat) : List (List Cell) :=
  let rows := (fitting height p.items).flatMap (Item.rows p.baseStyle width)
  rows.take height ++ List.replicate (height - rows.length) (List.replicate width ⟨' ', p.baseStyle⟩)

/-- a panel of at least two rows and two columns, borders included -/
def render (p : Panel) (width height : Nat) : List (List Cell) :=
  let edge (c : Char) : Cell := ⟨c, p.borderStyle⟩
  let inner := width - 2
  let top := edge '┌' :: fitWidth inner (edge '─') (p.titleChars.map edge) ++ [edge '┐']
  let bottom := edge '└' :: List.replicate inner (edge '─') ++ [edge '┘']
  top :: (p.innerRows inner (height - 2)).map (fun row => edge '│' :: row ++ [edge '│']) ++ [bottom]

theorem length_innerRows (p : Panel) (width height : Nat) : (p.innerRows width height).length = height := by
  simp only [innerRows, List.length_append, List.length_take, List.length_replicate]
  omega

end Panel

end ByteMachine
