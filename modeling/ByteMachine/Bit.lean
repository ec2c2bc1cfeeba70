/-
Binary digits and the full adder.

Contents:
- `Bit`: a binary digit, with its number, its character and its complement;
- `Bit.fullAdd`: the sum of three bits as a sum bit and a carry;
- `Bit.row`, `Bit.value`: numbers as rows of bits, the least significant first.

Main statements: `fullAdd_toNat` (sum bit and carry together are the sum of the three bits) and `value_row` (a row of
bits holds a number modulo its capacity).
-/

namespace ByteMachine

/-- a binary digit -/
inductive Bit
  | zero
  | one
  deriving DecidableEq, Repr, Inhabited

namespace Bit

def ofBool : Bool → Bit
  | false => zero
  | true => one

/-- the last binary digit of a number -/
def lowest (n : Nat) : Bit :=
  ofBool (n % 2 == 1)

def toNat : Bit → Nat
  | zero => 0
  | one => 1

def ofChar? : Char → Option Bit
  | '0' => some zero
  | '1' => some one
  | _ => none

def toChar : Bit → Char
  | zero => '0'
  | one => '1'

def text (b : Bit) : String :=
  String.singleton b.toChar

def invert : Bit → Bit
  | zero => one
  | one => zero

def isSet : Bit → Bool
  | zero => false
  | one => true

/-- the sum bit and the carry of `a + b + c` -/
def fullAdd (a b c : Bit) : Bit × Bit :=
  let total := a.toNat + b.toNat + c.toNat
  (lowest total, lowest (total / 2))

/-- sum bit and carry together are the sum of the three bits -/
theorem fullAdd_toNat (a b c : Bit) :
    (fullAdd a b c).1.toNat + 2 * (fullAdd a b c).2.toNat = a.toNat + b.toNat + c.toNat := by
  cases a <;> cases b <;> cases c <;> rfl

theorem ofChar?_toChar (b : Bit) : ofChar? b.toChar = some b := by
  cases b <;> rfl

theorem toNat_lowest (n : Nat) : (lowest n).toNat = n % 2 := by
  rcases Nat.mod_two_eq_zero_or_one n with h | h <;> simp [lowest, h, ofBool, toNat]

/-! ## Rows of bits -/

/-- the `width` lowest bits of a number, the least significant first -/
def row : Nat → Nat → List Bit
  | 0, _ => []
  | width + 1, n => lowest n :: row width (n / 2)

/-- the number that a row of bits stands for -/
def value : List Bit → Nat
  | [] => 0
  | b :: bs => b.toNat + 2 * value bs

/-- how many numbers a row of this width can hold -/
def capacity : Nat → Nat
  | 0 => 1
  | width + 1 => 2 * capacity width

@[simp] theorem length_row (width n : Nat) : (row width n).length = width := by
  induction width generalizing n with
  | zero => rfl
  | succ width ih => simp [row, ih]

/-- a row of bits holds a number modulo its capacity -/
theorem value_row (width n : Nat) : value (row width n) = n % capacity width := by
  induction width generalizing n with
  | zero => simp [row, value, capacity, Nat.mod_one]
  | succ width ih =>
    rw [row, value, ih, toNat_lowest, capacity, Nat.mod_mul]

end Bit

end ByteMachine
