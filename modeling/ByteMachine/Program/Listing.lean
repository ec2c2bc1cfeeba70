/-
Listings: one line per statement with its number and canonical text, the next statement marked.

Contents:
- `ListingLine`: a line as data;
- `Program.listing`: the lines of a program;
- `Program.listingText`: the lines as text.
-/
import ByteMachine.Program

namespace ByteMachine

structure ListingLine where
  index : Nat
  text : String
  /-- the statement that the next step executes -/
  isNext : Bool
  isUnknown : Bool
  deriving DecidableEq, Repr

/-- the marker, the number with at least two digits, and the text -/
def ListingLine.heading (l : ListingLine) : String :=
  (if l.isNext then "▶" else " ") ++ " " ++ Text.padded 2 l.index

def ListingLine.render (l : ListingLine) : String :=
  l.heading ++ ": " ++ l.text

namespace Program

def listing (p : Program) (currentStep : Nat) : List ListingLine :=
  p.statements.zipIdx.map fun (s, i) =>
    { index := i, text := s.canonical, isNext := i == currentStep, isUnknown := s.op.isUnknown }

def listingText (p : Program) (currentStep : Nat) : String :=
  String.join ((p.listing currentStep).map fun l => l.render ++ "\n")

end Program

end ByteMachine
