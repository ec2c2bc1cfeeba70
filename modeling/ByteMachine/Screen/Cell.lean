/-
Cells of a screen: characters with a style. Every character takes one cell.

Contents:
- `Colour`, `Style`, `Cell`;
- `Span`, `Line`: styled text before it is cut;
- `runsOf`: the style of a row as maximal runs of equal cells.
-/
import ByteMachine.Text.Blank
import ByteMachine.Text.Numeral

namespace ByteMachine

inductive Colour
  | cyan
  | green
  | magenta
  | yellow
  | white
  | gray
  | darkGray
  | red
  deriving DecidableEq, Repr

def Colour.name : Colour → String
  | .cyan => "Cyan"
  | .green => "Green"
  | .magenta => "Magenta"
  | .yellow => "Yellow"
  | .white => "White"
  | .gray => "Gray"
  | .darkGray => "DarkGray"
  | .red => "Red"

/-- without a colour, the terminal's own -/
structure Style where
  colour : Option Colour := none
  bold : Bool := false
  deriving DecidableEq, Repr

namespace Style

def plain : Style := {}

/-- a colour in normal weight -/
def of (c : Colour) : Style :=
  { colour := some c }

/-- a colour in bold -/
def boldOf (c : Colour) : Style :=
  { colour := some c, bold := true }

/-- the style where it says something, and `under` where it does not -/
def covering (s under : Style) : Style :=
  { colour := s.colour.or under.colour, bold := s.bold || under.bold }

def name (s : Style) : String :=
  (s.colour.map Colour.name).getD "" ++ (if s.bold then "+bold" else "")

end Style

structure Cell where
  char : Char
  style : Style := .plain
  deriving DecidableEq, Repr

/-- a piece of text in one style -/
structure Span where
  text : String
  style : Style := .plain
  deriving DecidableEq, Repr

/-- the cells of a span that lies on this style -/
def Span.cells (under : Style) (s : Span) : List Cell :=
  s.text.toList.map fun c => ⟨c, s.style.covering under⟩

/-- a line of text in several styles -/
abbrev Line := List Span

/-- the lines of a text; an empty text is one empty line -/
def plainLines (s : String) : List Line :=
  match Text.lines s.toList with
  | [] => [[]]
  | ls => ls.map fun l => [⟨String.ofList l, .plain⟩]

/-! ## Runs -/

/-- cells from `first` up to, but not including, `last`, all in one style -/
structure StyleRun where
  first : Nat
  last : Nat
  style : Style
  deriving DecidableEq, Repr

def StyleRun.text (r : StyleRun) : String :=
  Text.numeral r.first ++ "-" ++ Text.numeral r.last ++ " " ++ r.style.name

/-- the maximal runs of equal style in a row whose first cell is at `position` -/
def runsFrom (position : Nat) : List Cell → List StyleRun
  | [] => []
  | c :: cs =>
    match runsFrom (position + 1) cs with
    | [] => [⟨position, position + 1, c.style⟩]
    | r :: rs =>
      if r.style = c.style then { r with first := position } :: rs
      else ⟨position, position + 1, c.style⟩ :: r :: rs

/-- the maximal runs of equal style other than the plain one -/
def runsOf (row : List Cell) : List StyleRun :=
  (runsFrom 0 row).filter fun r => r.style ≠ .plain

end ByteMachine
