/-
Whole calculations of the serial adder: the result, its flags, and the derivation as lines of text.

A subtraction adds the two's complement, and its carry is the one of that addition. Overflow is decided from the signs
of the operands in two's complement, and equals the carry in the unsigned mode, where negative is never set.

Contents:
- `AdderOp`: addition and subtraction;
- `Report`: what a calculation gives;
- `Report.calculate`: the calculation on the integers as they are given;
- `SerialAdder`: an adder with a mode, which first clamps its operands.
-/
import ByteMachine.Adder.Mode
import ByteMachine.Adder.Ripple

namespace ByteMachine

/-! ## Operations -/

inductive AdderOp
  | add
  | sub
  deriving DecidableEq, Repr

/-- a name that is no operation of the adder -/
structure UnknownAdderOp where
  name : String
  deriving DecidableEq, Repr

def UnknownAdderOp.message (e : UnknownAdderOp) : String :=
  "unknown adder operation: " ++ e.name ++ " (expected add or sub)"

namespace AdderOp

def name : AdderOp → String
  | .add => "add"
  | .sub => "sub"

def names : List (String × AdderOp) :=
  [("add", .add), ("+", .add), ("sub", .sub), ("-", .sub)]

/-- the operation with this name; blanks around it and the case of ASCII letters do not matter -/
def parse (s : String) : Except UnknownAdderOp AdderOp :=
  let key := (Text.trim s.toList).map Char.toLower
  match names.find? fun entry => entry.1.toList == key with
  | some (_, op) => .ok op
  | none => .error ⟨s⟩

end AdderOp

/-! ## Calculations -/

/-- what a calculation gives: the result, its bits, its flags and the derivation -/
structure Report where
  result : Int
  bits : Octet
  flags : Flags
  lines : List String
  deriving DecidableEq

namespace Report

/-- the octet that is added to the first operand -/
def addend (b : Int) (op : AdderOp) (mode : Mode) : Octet :=
  match op with
  | .add => mode.encode b
  | .sub => (mode.encode b).negate

/-- the lines that state the problem -/
def heading (a b : Int) (op : AdderOp) (mode : Mode) : List String :=
  match op with
  | .add => ["Addition: " ++ Text.integer a ++ " + " ++ Text.integer b]
  | .sub =>
    ["Subtraction: " ++ Text.integer a ++ " - " ++ Text.integer b,
      "Rewritten as: " ++ Text.integer a ++ " + (-" ++ Text.integer b ++ ")",
      "Two's complement of " ++ Text.integer b ++ ": " ++ (addend b op mode).text]

/-- the operands as octets and the title of the bit lines -/
def operandLines (a b : Octet) : List String :=
  ["Operand A: " ++ a.text, "Operand B: " ++ b.text, "", "Bitwise addition from right to left:"]

/-- the last line, present when a carry is left over -/
def carryLines (carry : Bit) : List String :=
  if carry.isSet then ["Final carry: " ++ carry.text] else []

/-- did the result leave the range? In two's complement the signs of the operands and of the result tell, a subtrahend
counting with the opposite sign; an unsigned sum overflows when it carries. -/
def overflows (a b : Int) (op : AdderOp) (mode : Mode) (result : Int) (carry : Bit) : Bool :=
  match mode with
  | .unsigned => carry.isSet
  | .twosComplement =>
    let aNegative : Bool := a < 0
    let bNegative : Bool :=
      match op with
      | .add => b < 0
      | .sub => 0 ≤ b
    let resultNegative : Bool := result < 0
    aNegative == bNegative && aNegative != resultNegative

def calculate (a b : Int) (op : AdderOp) (mode : Mode) : Report :=
  let x := mode.encode a
  let y := addend b op mode
  let sum := x.add y
  let result := mode.decode sum.bits
  { result
    bits := sum.bits
    flags :=
      { zero := result == 0
        negative := mode == .twosComplement && sum.bits.msb.isSet
        carry := sum.carry.isSet
        overflow := overflows a b op mode result sum.carry }
    lines := heading a b op mode ++ operandLines x y ++ sum.steps.map BitStep.text ++ carryLines sum.carry }

end Report

/-! ## The adder -/

/-- an adder with its mode, at first unsigned -/
structure SerialAdder where
  mode : Mode := .unsigned
  deriving DecidableEq, Repr

namespace SerialAdder

/-- clamps both operands to the mode's range, then calculates -/
def calculate (adder : SerialAdder) (a b : Int) (op : AdderOp) : Report :=
  .calculate (adder.mode.clamp a) (adder.mode.clamp b) op adder.mode

end SerialAdder

end ByteMachine
