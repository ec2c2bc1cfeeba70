/-
What the serial adder computes, as numbers.

A row of bits is a number below its capacity, so an octet and its byte are one number. The chain of full adders adds
such numbers: eight sum bits and the carry out of the last position together are the whole sum. Complementing every bit
takes a number from 255, and adding one to that makes the two's complement. From these three facts follow the byte of
every calculation and its carry, whatever the size of the operands.

Contents:
- `Bit.value_lt_capacity`, `Bit.value_map_invert`, `Bit.toNat_getElem`: rows of bits as numbers;
- `Octet.toNat_add`, `Octet.toNat_negate`, `Octet.isSet_msb_iff`: octets as numbers;
- `AdderOp.exact`: the operation on integers.

Main statements:
- `Report.toNat_bits`: the byte of a calculation is the exact result modulo 256;
- `Report.carry_add_iff`, `Report.carry_sub_iff`: when a calculation carries.
-/
import Mathlib.Tactic
import ByteMachine.Adder.Report

namespace ByteMachine

/-! ## Rows of bits -/

namespace Bit

theorem toNat_lt_two (b : Bit) : b.toNat < 2 := by
  cases b <;> decide

theorem isSet_iff (b : Bit) : b.isSet = true ↔ b.toNat = 1 := by
  cases b <;> decide

theorem toNat_invert (b : Bit) : b.invert.toNat = 1 - b.toNat := by
  cases b <;> rfl

theorem value_lt_capacity (bs : List Bit) : value bs < capacity bs.length := by
  induction bs with
  | nil => exact Nat.one_pos
  | cons b bs ih =>
    have hb := b.toNat_lt_two
    simp only [value, List.length_cons, capacity]
    omega

/-- a row and its complement add up to the greatest number of that width -/
theorem value_map_invert (bs : List Bit) : value (bs.map invert) + value bs + 1 = capacity bs.length := by
  induction bs with
  | nil => rfl
  | cons b bs ih =>
    have hb := b.toNat_lt_two
    simp only [List.map_cons, value, toNat_invert, List.length_cons, capacity]
    omega

/-- the bit at a position, read off the number -/
theorem toNat_getElem (bs : List Bit) (i : ℕ) (h : i < bs.length) :
    bs[i].toNat = value bs / capacity i % 2 := by
  induction bs generalizing i with
  | nil => cases h
  | cons b bs ih =>
    have hb := b.toNat_lt_two
    cases i with
    | zero =>
      simp only [List.getElem_cons_zero, value, capacity, Nat.div_one]
      omega
    | succ i =>
      have hhalf : (b.toNat + 2 * value bs) / 2 = value bs := by omega
      rw [List.getElem_cons_succ, ih i (Nat.lt_of_succ_lt_succ h), value, capacity, ← Nat.div_div_eq_div_mul, hhalf]

end Bit

/-! ## Octets -/

namespace Octet

/-- an octet is written with its most significant bit first -/
theorem toList_text (o : Octet) : o.text.toList = (o.bits.map Bit.toChar).reverse := by
  rw [text, String.toList_ofList, chars, List.map_reverse]

theorem value_lt (o : Octet) : Bit.value o.bits < 256 := by
  have h := Bit.value_lt_capacity o.bits
  rw [o.width] at h
  exact h

/-- an octet and its byte are one number -/
theorem toNat_toByte (o : Octet) : o.toByte.toNat = Bit.value o.bits :=
  UInt8.toNat_ofNat_of_lt' o.value_lt

/-- **The chain adds.** Sum bits and final carry together are the sum of both octets. -/
theorem toNat_add (a b : Octet) :
    (a.add b).bits.toByte.toNat + 256 * (a.add b).carry.toNat = a.toByte.toNat + b.toByte.toNat := by
  have h := value_ripple 0 .zero a.bits b.bits (a.width.trans b.width.symm)
  rw [a.width] at h
  rw [toNat_toByte, toNat_toByte, toNat_toByte]
  exact h

theorem toNat_invert (o : Octet) : o.invert.toByte.toNat = 255 - o.toByte.toNat := by
  have h := Bit.value_map_invert o.bits
  rw [o.width] at h
  have hsum : Bit.value o.invert.bits + Bit.value o.bits + 1 = 256 := h
  rw [toNat_toByte, toNat_toByte]
  omega

theorem toNat_negate (o : Octet) : o.negate.toByte.toNat = (256 - o.toByte.toNat) % 256 := by
  have hadd := toNat_add o.invert (ofByte 1)
  have hone : (ofByte 1).toByte.toNat = 1 := by rw [toByte_ofByte]; rfl
  have hlt := o.toByte.toNat_lt
  have hcarry := (o.invert.add (ofByte 1)).carry.toNat_lt_two
  have hneg := o.negate.toByte.toNat_lt
  rw [toNat_invert, hone] at hadd
  change o.negate.toByte.toNat + _ = _ at hadd
  omega

theorem isSet_msb_iff (o : Octet) : o.msb.isSet = true ↔ 128 ≤ o.toByte.toNat := by
  have hlt : 7 < o.bits.length := by rw [o.width]; decide
  have hbit : o.msb.toNat = Bit.value o.bits / 128 % 2 := Bit.toNat_getElem o.bits 7 hlt
  have hvalue := o.value_lt
  rw [Bit.isSet_iff, hbit, toNat_toByte]
  omega

end Octet

/-! ## Modes -/

namespace Mode

variable {mode : Mode}

/-- a number is decoded to itself modulo 256 -/
theorem decode_modEq (mode : Mode) (o : Octet) : mode.decode o ≡ o.toByte.toNat [ZMOD 256] := by
  unfold Int.ModEq
  cases mode with
  | unsigned => rw [decode_unsigned]
  | twosComplement =>
    rw [decode_twosComplement]
    split <;> omega

/-- two numbers in range that agree modulo 256 are one -/
theorem InRange.eq_of_modEq {m n : ℤ} (hm : mode.InRange m) (hn : mode.InRange n) (h : m ≡ n [ZMOD 256]) : m = n := by
  unfold InRange least greatest at hm hn
  unfold Int.ModEq at h
  cases mode <;> dsimp only at hm hn <;> omega

theorem decode_neg_iff (o : Octet) : Mode.twosComplement.decode o < 0 ↔ 128 ≤ o.toByte.toNat := by
  have hlt := o.toByte.toNat_lt
  rw [decode_twosComplement]
  split <;> omega

theorem clamp_inRange (mode : Mode) (n : ℤ) : mode.InRange (mode.clamp n) := by
  unfold InRange clamp
  cases mode <;> dsimp only [least, greatest] <;> split_ifs <;> omega

end Mode

/-! ## Calculations -/

/-- the operation on integers -/
def AdderOp.exact (op : AdderOp) (a b : ℤ) : ℤ :=
  match op with
  | .add => a + b
  | .sub => a - b

namespace Report

variable (a b : ℤ) (op : AdderOp) (mode : Mode)

/-- the second operand as it is added, modulo 256 -/
theorem toNat_addend : ((addend b op mode).toByte.toNat : ℤ) = op.exact 0 b % 256 := by
  have he := Mode.toByte_encode mode b
  cases op with
  | add =>
    rw [addend, he, AdderOp.exact, zero_add]
  | sub =>
    have hlt := (mode.encode b).toByte.toNat_lt
    rw [addend, Octet.toNat_negate, AdderOp.exact]
    omega

/-- byte and carry of a calculation together are the sum of both operands, each modulo 256 -/
theorem toNat_bits_add_carry :
    ((calculate a b op mode).bits.toByte.toNat : ℤ) +
        256 * ((mode.encode a).add (addend b op mode)).carry.toNat =
      a % 256 + op.exact 0 b % 256 := by
  rw [← toNat_addend b op mode, ← Mode.toByte_encode mode a]
  exact_mod_cast Octet.toNat_add (mode.encode a) (addend b op mode)

/-- **The byte of a calculation** is the exact result modulo 256. -/
theorem toNat_bits : ((calculate a b op mode).bits.toByte.toNat : ℤ) = op.exact a b % 256 := by
  have h := toNat_bits_add_carry a b op mode
  have hlt := (calculate a b op mode).bits.toByte.toNat_lt
  cases op <;> simp only [AdderOp.exact] at h ⊢ <;> omega

theorem carry_iff : (calculate a b op mode).flags.carry = true ↔ 256 ≤ a % 256 + op.exact 0 b % 256 := by
  have h := toNat_bits_add_carry a b op mode
  have hlt := (calculate a b op mode).bits.toByte.toNat_lt
  have hcarry := ((mode.encode a).add (addend b op mode)).carry.toNat_lt_two
  change ((mode.encode a).add (addend b op mode)).carry.isSet = true ↔ _
  rw [Bit.isSet_iff]
  omega

/-- an addition carries when the sum of the low bytes needs a ninth bit -/
theorem carry_add_iff : (calculate a b .add mode).flags.carry = true ↔ 255 < a % 256 + b % 256 := by
  rw [carry_iff, AdderOp.exact, zero_add]
  omega

/-- a subtraction carries when it borrows nothing, except that subtracting zero never carries -/
theorem carry_sub_iff : (calculate a b .sub mode).flags.carry = true ↔ b % 256 ≠ 0 ∧ b % 256 ≤ a % 256 := by
  rw [carry_iff, AdderOp.exact]
  omega

theorem result_modEq : (calculate a b op mode).result ≡ op.exact a b [ZMOD 256] := by
  have h := Mode.decode_modEq mode (calculate a b op mode).bits
  rw [toNat_bits] at h
  exact h.trans (Int.mod_modEq _ _)

theorem result_inRange : mode.InRange (calculate a b op mode).result :=
  Mode.decode_inRange mode _

/-- the result is zero when its byte is -/
theorem result_eq_zero_iff : (calculate a b op mode).result = 0 ↔ op.exact a b % 256 = 0 := by
  have hzero : mode.InRange 0 := by cases mode <;> decide
  constructor
  · intro h
    have hm := result_modEq a b op mode
    rw [h] at hm
    exact hm.symm
  · intro h
    exact (result_inRange a b op mode).eq_of_modEq hzero ((result_modEq a b op mode).trans h)

end Report

end ByteMachine
