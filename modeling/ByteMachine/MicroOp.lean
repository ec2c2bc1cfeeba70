/-
Micro-operations: the register transfers of the machine, and their canonical text.

Contents:
- `MicroOp`: the twelve transfers, and statements that are none of them;
- `MicroOp.text`: the canonical text. A statement that is no transfer keeps its own text.
-/
import ByteMachine.Text.Numeral

namespace ByteMachine

/-- one micro-operation -/
inductive MicroOp
  /-- the program counter goes to the memory address register -/
  | marFromPc
  /-- the addressed cell goes to the memory data register -/
  | mdrFromMemory
  /-- the memory data register goes to the instruction register -/
  | irFromMdr
  /-- the program counter moves to the next cell -/
  | advancePc
  /-- a register goes to bus A -/
  | busAFromRegister (n : Nat)
  /-- a register goes to bus B -/
  | busBFromRegister (n : Nat)
  /-- the sum of the buses goes to the result register -/
  | aluAdd
  /-- their difference -/
  | aluSub
  /-- their conjunction, bit by bit -/
  | aluAnd
  /-- the result goes to a register -/
  | registerFromAlu (n : Nat)
  /-- the flags of the result become the user's flags -/
  | latchFlags
  /-- the memory data register goes to the addressed cell -/
  | memoryFromMdr
  /-- a statement that is no transfer -/
  | unknown (text : String)
  deriving DecidableEq, Repr

namespace MicroOp

def isUnknown : MicroOp → Bool
  | .unknown _ => true
  | _ => false

/-- the name of general register `n` -/
def registerName (n : Nat) : String :=
  "R[" ++ Text.numeral n ++ "]"

/-- the canonical text -/
def text : MicroOp → String
  | .marFromPc => "MAR ← PC"
  | .mdrFromMemory => "MDR ← Mem[MAR]"
  | .irFromMdr => "IR ← MDR"
  | .advancePc => "PC ← PC + 1"
  | .busAFromRegister n => "A ← " ++ registerName n
  | .busBFromRegister n => "B ← " ++ registerName n
  | .aluAdd => "ALU ← A + B"
  | .aluSub => "ALU ← A - B"
  | .aluAnd => "ALU ← A & B"
  | .registerFromAlu n => registerName n ++ " ← ALU"
  | .latchFlags => "FLAGS ← ALU.flags"
  | .memoryFromMdr => "Mem[MAR] ← MDR"
  | .unknown text => text

end MicroOp

end ByteMachine
