/-
The register file: general registers, program counter, instruction register, memory address register and memory data
register, one byte each.

Contents:
- `Registers`: the file;
- `Registers.read`, `Registers.write`, `Registers.holds`: the general registers. A missing one reads as zero, and
  writing it changes nothing;
- `Registers.assign`: one of the four named registers set from outside;
- `Registers.advancePc`: the program counter moves on, modulo the memory size;
- `Registers.inspect`: the file as a line of hexadecimal text.

Main statement: `read_write` (a write is seen in its own register only).
-/
import ByteMachine.Text.Numeral

namespace ByteMachine

structure Registers where
  general : List UInt8
  pc : UInt8 := 0
  ir : UInt8 := 0
  mar : UInt8 := 0
  mdr : UInt8 := 0
  deriving DecidableEq, Repr

/-- one of the registers with a name of its own -/
inductive NamedRegister
  | pc
  | ir
  | mar
  | mdr
  deriving DecidableEq, Repr

namespace Registers

/-- `count` general registers, everything zero -/
def zeroed (count : Nat) : Registers :=
  { general := List.replicate count 0 }

/-- how many general registers there are -/
def count (r : Registers) : Nat :=
  r.general.length

def read (r : Registers) (n : Nat) : UInt8 :=
  r.general.getD n 0

/-- is there a general register with this number? -/
def holds (r : Registers) (n : Nat) : Bool :=
  n < r.count

def write (r : Registers) (n : Nat) (b : UInt8) : Registers :=
  { r with general := r.general.set n b }

/-- everything zero again -/
def reset (r : Registers) : Registers :=
  zeroed r.count

/-- the next cell; after the last cell comes the first, and a memory without cells counts as one cell -/
def nextPc (memorySize : Nat) (pc : UInt8) : UInt8 :=
  UInt8.ofNat ((pc.toNat + 1) % max memorySize 1)

def advancePc (r : Registers) (memorySize : Nat) : Registers :=
  { r with pc := nextPc memorySize r.pc }

/-- the register with this name set to `b` -/
def assign (r : Registers) (name : NamedRegister) (b : UInt8) : Registers :=
  match name with
  | .pc => { r with pc := b }
  | .ir => { r with ir := b }
  | .mar => { r with mar := b }
  | .mdr => { r with mdr := b }

/-- the file as a line of hexadecimal text -/
def inspect (r : Registers) : String :=
  "PC=" ++ Text.hexByte r.pc ++ " IR=" ++ Text.hexByte r.ir ++ " MAR=" ++ Text.hexByte r.mar ++
    " MDR=" ++ Text.hexByte r.mdr ++
    String.join (r.general.zipIdx.map fun (b, n) => " R" ++ Text.numeral n ++ "=" ++ Text.hexByte b)

@[simp] theorem count_write (r : Registers) (n : Nat) (b : UInt8) : (r.write n b).count = r.count := by
  simp [write, count]

@[simp] theorem count_reset (r : Registers) : r.reset.count = r.count := by
  simp [reset, zeroed, count]

/-- a write is seen in its own register only, if that register exists -/
theorem read_write (r : Registers) (k n : Nat) (b : UInt8) :
    (r.write n b).read k = if k = n ∧ n < r.count then b else r.read k := by
  simp only [read, write, count, List.getD_eq_getElem?_getD, List.getElem?_set]
  by_cases h : n = k
  · subst h
    by_cases hl : n < r.general.length
    · simp [hl]
    · simp [hl]
  · have h' : ¬(k = n) := fun e => h e.symm
    simp [h, h']

end Registers

end ByteMachine
