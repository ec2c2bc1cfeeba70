/-
Condition flags. Every arithmetic unit reports the same four, each with rules of its own for carry and overflow.

Contents:
- `Flags`: zero, negative, carry, overflow;
- `Flags.ofResult`: zero and negative as a result byte gives them, the other two clear;
- `Flags.statusByte`: the four packed into one byte;
- `Flags.text`: the four as a line of text.
-/

namespace ByteMachine

/-- the four condition flags -/
structure Flags where
  zero : Bool := false
  negative : Bool := false
  carry : Bool := false
  overflow : Bool := false
  deriving DecidableEq, Repr

/-- is the highest bit of the byte set? -/
def isNegative (b : UInt8) : Bool :=
  128 ≤ b.toNat

namespace Flags

/-- all four clear -/
def clear : Flags := {}

/-- zero and negative of a result, carry and overflow clear -/
def ofResult (result : UInt8) : Flags :=
  { zero := result == 0, negative := isNegative result }

/-- bit 7 negative, bit 6 overflow, bit 1 zero, bit 0 carry -/
def statusByte (f : Flags) : UInt8 :=
  UInt8.ofNat (128 * f.negative.toNat + 64 * f.overflow.toNat + 2 * f.zero.toNat + f.carry.toNat)

/-- a flag as a digit -/
def mark : Bool → String
  | false => "0"
  | true => "1"

def text (f : Flags) : String :=
  "Z=" ++ mark f.zero ++ " N=" ++ mark f.negative ++ " C=" ++ mark f.carry ++ " V=" ++ mark f.overflow

end Flags

end ByteMachine
