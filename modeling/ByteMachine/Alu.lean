/-
The arithmetic-logic unit: ten operations on bytes, each with a result and flags.

Rules for the flags:
- zero and negative always follow the result;
- the logical operations clear carry and overflow;
- add and increment: carry out of the highest bit; overflow when both operands have one sign and the result the other;
- subtract and decrement: carry is the borrow; overflow when the operands' signs differ and the result's differs from the
  minuend's;
- the shifts: carry is the bit shifted out, overflow is clear.

Contents:
- `AluOp`: the operations, their names and how many operands they take;
- `AluOp.exact`: the result before it is cut to a byte;
- `AluOp.evaluate`: result and flags;
- `Alu`: the unit that keeps its last output.

Main statement: `evaluate_result` (the result is the exact one modulo 256).
-/
import ByteMachine.Flags
import ByteMachine.Text.Blank

namespace ByteMachine

/-! ## Operations -/

inductive AluOp
  | and
  | or
  | xor
  | not
  | add
  | sub
  | inc
  | dec
  | shl
  | shr
  deriving DecidableEq, Repr

/-- a name that is no operation of the unit -/
structure UnknownAluOp where
  name : String
  deriving DecidableEq, Repr

def UnknownAluOp.message (e : UnknownAluOp) : String :=
  "unknown ALU operation: " ++ e.name

namespace AluOp

/-- all operations, in the order in which they are listed -/
def all : List AluOp :=
  [.and, .or, .xor, .not, .add, .sub, .inc, .dec, .shl, .shr]

def name : AluOp → String
  | .and => "and"
  | .or => "or"
  | .xor => "xor"
  | .not => "not"
  | .add => "add"
  | .sub => "sub"
  | .inc => "inc"
  | .dec => "dec"
  | .shl => "shl"
  | .shr => "shr"

/-- how many operands matter -/
def arity : AluOp → Nat
  | .not | .inc | .dec | .shl | .shr => 1
  | _ => 2

/-- the operation with this name; blanks around it and the case of ASCII letters do not matter -/
def parse (s : String) : Except UnknownAluOp AluOp :=
  let key := (Text.trim s.toList).map Char.toLower
  match all.find? fun op => op.name.toList == key with
  | some op => .ok op
  | none => .error ⟨s⟩

/-! ## Evaluation -/

/-- the result before it is cut to a byte -/
def exact (op : AluOp) (a b : UInt8) : Int :=
  match op with
  | .and => ((a &&& b).toNat : Int)
  | .or => ((a ||| b).toNat : Int)
  | .xor => ((a ^^^ b).toNat : Int)
  | .not => -(a.toNat : Int) - 1
  | .add => (a.toNat : Int) + b.toNat
  | .sub => (a.toNat : Int) - b.toNat
  | .inc => (a.toNat : Int) + 1
  | .dec => (a.toNat : Int) - 1
  | .shl => (a.toNat : Int) * 2
  | .shr => ((a.toNat / 2 : Nat) : Int)

end AluOp

/-- a result and the flags it comes with -/
structure AluOutput where
  result : UInt8
  flags : Flags
  deriving DecidableEq, Repr

/-- the byte that an integer is cut to -/
def lowByte (n : Int) : UInt8 :=
  UInt8.ofNat (n % 256).toNat

theorem toNat_lowByte (n : Int) : ((lowByte n).toNat : Int) = n % 256 := by
  simp only [lowByte, UInt8.toNat_ofNat']
  omega

namespace AluOp

def evaluate (op : AluOp) (a b : UInt8) : AluOutput :=
  let exact := op.exact a b
  let result := lowByte exact
  let base := Flags.ofResult result
  let flags :=
    match op with
    | .and | .or | .xor | .not => base
    | .add =>
      { base with
        carry := 255 < exact
        overflow := isNegative a == isNegative b && isNegative a != isNegative result }
    | .inc => { base with carry := 255 < exact, overflow := !isNegative a && isNegative result }
    | .sub =>
      { base with
        carry := exact < 0
        overflow := isNegative a != isNegative b && isNegative a != isNegative result }
    | .dec => { base with carry := exact < 0, overflow := isNegative a && !isNegative result }
    | .shl => { base with carry := isNegative a }
    | .shr => { base with carry := a.toNat % 2 == 1 }
  ⟨result, flags⟩

/-- the result is the exact one modulo 256 -/
theorem evaluate_result (op : AluOp) (a b : UInt8) : ((op.evaluate a b).result.toNat : Int) = op.exact a b % 256 :=
  toNat_lowByte _

end AluOp

/-! ## The unit -/

/-- the unit with its last output; at first the result is zero and every flag is clear -/
structure Alu where
  result : UInt8 := 0
  flags : Flags := .clear
  deriving DecidableEq, Repr

/-- evaluates and keeps the output -/
def Alu.apply (_ : Alu) (op : AluOp) (a b : UInt8) : Alu :=
  let out := op.evaluate a b
  ⟨out.result, out.flags⟩

end ByteMachine
