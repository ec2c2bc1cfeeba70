/-
Memory: a fixed number of byte cells. Reading outside gives zero, writing outside changes nothing.

Contents:
- `Memory`: the cells;
- `Memory.read`, `Memory.write`, `Memory.clear`: the operations of the machine;
- `Memory.holds`: is there a cell at this address?
- `Memory.store`: the checked write;
- `Memory.dump`: a window of addresses and values;
- `Memory.nonZero`: the cells that hold something.

Main statements: `size_write`, `read_write` (a write is seen at its own address only) and `dump_eq` (what a window has).
-/
import ByteMachine.Text.Numeral

namespace ByteMachine

structure Memory where
  cells : List UInt8
  deriving DecidableEq, Repr

/-- an address without a cell, in a memory of this size -/
structure AddressOutOfRange where
  address : Nat
  size : Nat
  deriving DecidableEq, Repr

def AddressOutOfRange.message (e : AddressOutOfRange) : String :=
  "memory address " ++ Text.numeral e.address ++ " out of range (memory has " ++ Text.numeral e.size ++ " cells)"

namespace Memory

/-- `size` cells of zero -/
def zeroed (size : Nat) : Memory :=
  ⟨List.replicate size 0⟩

def size (m : Memory) : Nat :=
  m.cells.length

def read (m : Memory) (address : Nat) : UInt8 :=
  m.cells.getD address 0

/-- is there a cell at this address? -/
def holds (m : Memory) (address : Nat) : Bool :=
  address < m.size

def write (m : Memory) (address : Nat) (b : UInt8) : Memory :=
  ⟨m.cells.set address b⟩

def store (m : Memory) (address : Nat) (b : UInt8) : Except AddressOutOfRange Memory :=
  if m.holds address then .ok (m.write address b) else .error ⟨address, m.size⟩

def clear (m : Memory) : Memory :=
  zeroed m.size

/-- the addresses from `start` on, at most `count` of them, with their values -/
def dump (m : Memory) (start count : Nat) : List (Nat × UInt8) :=
  (((m.cells.drop start).take count).zipIdx start).map fun (b, address) => (address, b)

/-- the cells that hold something, with their addresses -/
def nonZero (m : Memory) : List (Nat × UInt8) :=
  (m.dump 0 m.size).filter fun entry => entry.2 != 0

/-- how full the memory is, for people who look into the machine -/
def inspect (m : Memory) : String :=
  "Memory \x7b non_zero_cells: " ++ Text.numeral m.nonZero.length ++ ", total_cells: " ++ Text.numeral m.size ++
    " \x7d"

@[simp] theorem size_zeroed (size : Nat) : (zeroed size).size = size := by
  simp [zeroed, Memory.size]

@[simp] theorem size_write (m : Memory) (address : Nat) (b : UInt8) : (m.write address b).size = m.size := by
  simp [write, size]

@[simp] theorem size_clear (m : Memory) : m.clear.size = m.size := by
  simp [clear]

/-- nothing is written where there is no cell -/
theorem write_of_size_le {m : Memory} {address : Nat} (h : m.size ≤ address) (b : UInt8) :
    m.write address b = m := by
  cases m with
  | mk cells => exact congrArg Memory.mk (List.set_eq_of_length_le h)

/-- a write is seen at its own address only, if that address has a cell -/
theorem read_write (m : Memory) (a address : Nat) (b : UInt8) :
    (m.write address b).read a = if a = address ∧ address < m.size then b else m.read a := by
  simp only [read, write, size, List.getD_eq_getElem?_getD, List.getElem?_set]
  by_cases h : address = a
  · subst h
    by_cases hl : address < m.cells.length
    · simp [hl]
    · simp [hl]
  · have h' : ¬(a = address) := fun e => h e.symm
    simp [h, h']

/-- a cell has what is read at its address -/
theorem getElem?_cells {m : Memory} {address : Nat} (h : address < m.size) :
    m.cells[address]? = some (m.read address) := by
  rw [read, List.getD_eq_getElem?_getD, List.getElem?_eq_getElem h, Option.getD_some]

/-- a window has the addresses from `start` on, in order, as many as it asks for or as there are left -/
theorem dump_eq (m : Memory) (start count : Nat) :
    m.dump start count = (List.range' start (min count (m.size - start))).map fun a => (a, m.read a) := by
  have hlength : ((m.cells.drop start).take count).length = min count (m.size - start) := by
    rw [List.length_take, List.length_drop, size]
  apply List.ext_getElem?
  intro i
  rw [dump, List.getElem?_map, List.getElem?_map, List.getElem?_zipIdx]
  by_cases hi : i < min count (m.size - start)
  · have hcell : ((m.cells.drop start).take count)[i]? = some (m.read (start + i)) := by
      rw [List.getElem?_take_of_lt (by omega), List.getElem?_drop, getElem?_cells (by omega)]
    rw [hcell, List.getElem?_range' hi]
    simp
  · rw [List.getElem?_eq_none (by omega), List.getElem?_eq_none (by simp; omega)]
    rfl

end Memory

end ByteMachine
