/-
What a micro-operation does to the state, and the remark that the trace keeps of it.

The result of the arithmetic micro-operations goes through a stage of its own: zero and negative follow the result,
carry is set when the exact result is above 255, and overflow is never set. So a difference never carries.

Contents:
- `State.latchAlu`: a result with its flags;
- `State.execute`: the effect of a micro-operation;
- `State.remark`: what is said of it, read off the state that it leaves.
-/
import ByteMachine.Alu
import ByteMachine.Machine.State
import ByteMachine.MicroOp

namespace ByteMachine.State

/-- keeps the low byte of an exact result, and its flags -/
def latchAlu (s : State) (exact : Int) : State :=
  let result := lowByte exact
  { s with aluResult := result, aluFlags := { Flags.ofResult result with carry := 255 < exact } }

/-- the effect of a micro-operation on a machine of this memory size -/
def execute (memorySize : Nat) (op : MicroOp) (s : State) : State :=
  match op with
  | .marFromPc => { s with registers := { s.registers with mar := s.registers.pc } }
  | .mdrFromMemory => { s with registers := { s.registers with mdr := s.memory.read s.registers.mar.toNat } }
  | .irFromMdr => { s with registers := { s.registers with ir := s.registers.mdr } }
  | .advancePc => { s with registers := s.registers.advancePc memorySize }
  | .busAFromRegister n => { s with busA := s.registers.read n }
  | .busBFromRegister n => { s with busB := s.registers.read n }
  | .aluAdd => s.latchAlu ((s.busA.toNat : Int) + s.busB.toNat)
  | .aluSub => s.latchAlu ((s.busA.toNat : Int) - s.busB.toNat)
  | .aluAnd => s.latchAlu (s.busA &&& s.busB).toNat
  | .registerFromAlu n => { s with registers := s.registers.write n s.aluResult }
  | .latchFlags => { s with flags := s.aluFlags }
  | .memoryFromMdr => { s with memory := s.memory.write s.registers.mar.toNat s.registers.mdr }
  | .unknown _ => s

/-- a byte in decimal -/
def show8 (b : UInt8) : String :=
  Text.numeral b.toNat

/-- the name of a memory cell -/
def cellName (address : UInt8) : String :=
  "Mem[" ++ show8 address ++ "]"

/-- what is said of a micro-operation that has just left the state `s` -/
def remark (op : MicroOp) (s : State) : String :=
  let r := s.registers
  match op with
  | .marFromPc => "MAR = " ++ show8 r.mar
  | .mdrFromMemory => "MDR = " ++ cellName r.mar ++ " = " ++ show8 r.mdr
  | .irFromMdr => "IR = " ++ show8 r.ir
  | .advancePc => "PC = " ++ show8 r.pc
  | .busAFromRegister n => "A = " ++ MicroOp.registerName n ++ " = " ++ show8 s.busA
  | .busBFromRegister n => "B = " ++ MicroOp.registerName n ++ " = " ++ show8 s.busB
  | .aluAdd => "ALU = " ++ show8 s.busA ++ " + " ++ show8 s.busB ++ " = " ++ show8 s.aluResult
  | .aluSub => "ALU = " ++ show8 s.busA ++ " - " ++ show8 s.busB ++ " = " ++ show8 s.aluResult
  | .aluAnd => "ALU = " ++ show8 s.busA ++ " & " ++ show8 s.busB ++ " = " ++ show8 s.aluResult
  | .registerFromAlu n =>
    if r.holds n then MicroOp.registerName n ++ " = " ++ show8 s.aluResult
    else MicroOp.registerName n ++ " does not exist, write ignored"
  | .latchFlags => "FLAGS = " ++ s.flags.text
  | .memoryFromMdr =>
    if s.memory.holds r.mar.toNat then cellName r.mar ++ " = " ++ show8 r.mdr
    else cellName r.mar ++ " out of range, write ignored"
  | .unknown text => "Unknown operation: " ++ text

end ByteMachine.State
