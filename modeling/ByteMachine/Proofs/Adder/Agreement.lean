/-
The three arithmetic units agree where they should.

The arithmetic-logic unit cuts an exact result to a byte, the serial adder chains full adders and negates by a chain of
its own, and the machine has a stage between its buses and its result register. All three give the same byte, and zero
and negative follow from it. Carry is where they part. A difference borrows in the unit, where the adder, which adds the
two's complement, carries when nothing was borrowed, but never for a subtrahend of zero; the machine's stage never
carries on a difference. Overflow is told by signs in the unit and in the adder, and those are the same for operands in
range; the machine's stage has none.

Contents:
- `AdderOp.aluOp`, `MicroOp.aluOp?`: the operation of the unit that an adder operation or a micro-operation stands for;
- `AluOp.carry_evaluate_add_iff` and its neighbours: the flags of the unit;
- `isNegative_lowByte`: the sign of an integer in range is the highest bit of its byte;
- `Report.toByte_bits`, `Report.zero_eq`, `Report.carry_add_eq`, `Report.carry_sub_eq`, `Report.overflow_eq`: the adder
  against the unit;
- `State.execute_aluOp`: the machine's stage against the unit.

Main statement: `arithmetic_units_agree`.
-/
import Mathlib.Tactic
import ByteMachine.Machine.Execute
import ByteMachine.MicroOp.Decode
import ByteMachine.Proofs.Adder.Sums

namespace ByteMachine

/-- the same operation of the arithmetic-logic unit -/
def AdderOp.aluOp : AdderOp → AluOp
  | .add => .add
  | .sub => .sub

/-- the operation that a micro-operation carries out on the two buses -/
def MicroOp.aluOp? : MicroOp → Option AluOp
  | .aluAdd => some .add
  | .aluSub => some .sub
  | .aluAnd => some .and
  | _ => none

/-! ## The unit -/

theorem isNegative_iff (b : UInt8) : isNegative b = true ↔ 128 ≤ b.toNat :=
  decide_eq_true_iff

namespace AluOp

variable (op : AluOp) (x y : UInt8)

theorem zero_evaluate : (op.evaluate x y).flags.zero = ((op.evaluate x y).result == 0) := by
  cases op <;> rfl

theorem negative_evaluate : (op.evaluate x y).flags.negative = isNegative (op.evaluate x y).result := by
  cases op <;> rfl

theorem carry_evaluate_add_iff : (evaluate .add x y).flags.carry = true ↔ 255 < (x.toNat : ℤ) + y.toNat :=
  decide_eq_true_iff

/-- a difference borrows when it is negative -/
theorem carry_evaluate_sub_iff : (evaluate .sub x y).flags.carry = true ↔ (x.toNat : ℤ) - y.toNat < 0 :=
  decide_eq_true_iff

theorem overflow_evaluate_add :
    (evaluate .add x y).flags.overflow =
      (isNegative x == isNegative y && isNegative x != isNegative (evaluate .add x y).result) := rfl

theorem overflow_evaluate_sub :
    (evaluate .sub x y).flags.overflow =
      (isNegative x != isNegative y && isNegative x != isNegative (evaluate .sub x y).result) := rfl

end AluOp

/-! ## Bytes of integers -/

theorem lowByte_eq_zero_iff (n : ℤ) : lowByte n = 0 ↔ n % 256 = 0 := by
  rw [← toNat_lowByte n, ← UInt8.toNat_inj]
  exact Int.natCast_eq_zero.symm

/-- the sign of an integer in range is the highest bit of its byte -/
theorem isNegative_lowByte {n : ℤ} (h : Mode.twosComplement.InRange n) : isNegative (lowByte n) = decide (n < 0) := by
  have hbyte := toNat_lowByte n
  unfold Mode.InRange Mode.least Mode.greatest at h
  dsimp only at h
  rw [Bool.eq_iff_iff, isNegative_iff, decide_eq_true_iff]
  omega

/-! ## The adder and the unit -/

namespace Report

variable (a b : ℤ) (op : AdderOp) (mode : Mode)

/-- both give one byte -/
theorem toByte_bits :
    (calculate a b op mode).bits.toByte = (op.aluOp.evaluate (lowByte a) (lowByte b)).result := by
  have hadder := toNat_bits a b op mode
  have hunit := op.aluOp.evaluate_result (lowByte a) (lowByte b)
  apply UInt8.toNat_inj.1
  cases op <;> simp only [AdderOp.aluOp, AluOp.exact, AdderOp.exact, toNat_lowByte] at hadder hunit ⊢ <;> omega

theorem zero_eq :
    (calculate a b op mode).flags.zero = (op.aluOp.evaluate (lowByte a) (lowByte b)).flags.zero := by
  have hbyte : (calculate a b op mode).bits.toByte = 0 ↔ op.exact a b % 256 = 0 := by
    rw [← toNat_bits a b op mode, ← UInt8.toNat_inj]
    exact Int.natCast_eq_zero.symm
  rw [AluOp.zero_evaluate, ← toByte_bits a b op mode, Bool.eq_iff_iff, beq_iff_eq, hbyte,
    ← result_eq_zero_iff a b op mode]
  exact beq_iff_eq

/-- both carry out of the highest bit -/
theorem carry_add_eq :
    (calculate a b .add mode).flags.carry = (AluOp.evaluate .add (lowByte a) (lowByte b)).flags.carry := by
  rw [Bool.eq_iff_iff, carry_add_iff, AluOp.carry_evaluate_add_iff, toNat_lowByte, toNat_lowByte]

/-- the adder carries where the unit does not borrow, unless the subtrahend is zero -/
theorem carry_sub_eq :
    (calculate a b .sub mode).flags.carry =
      (!(AluOp.evaluate .sub (lowByte a) (lowByte b)).flags.carry && lowByte b != 0) := by
  rw [Bool.eq_iff_iff, carry_sub_iff, Bool.and_eq_true, Bool.not_eq_true', ← Bool.not_eq_true,
    AluOp.carry_evaluate_sub_iff, bne_iff_ne, ne_eq, ne_eq, lowByte_eq_zero_iff, toNat_lowByte, toNat_lowByte]
  omega

/-- the highest bit of the result, in both -/
theorem negative_eq :
    (calculate a b op .twosComplement).flags.negative =
      (op.aluOp.evaluate (lowByte a) (lowByte b)).flags.negative := by
  rw [AluOp.negative_evaluate, ← toByte_bits a b op .twosComplement, Bool.eq_iff_iff, isNegative_iff]
  exact Octet.isSet_msb_iff _

/-- on operands in range both tell overflow from the same signs -/
theorem overflow_eq {a b : ℤ} (ha : Mode.twosComplement.InRange a) (hb : Mode.twosComplement.InRange b) :
    (calculate a b op .twosComplement).flags.overflow =
      (op.aluOp.evaluate (lowByte a) (lowByte b)).flags.overflow := by
  have hresult : isNegative (op.aluOp.evaluate (lowByte a) (lowByte b)).result =
      decide ((calculate a b op .twosComplement).result < 0) := by
    rw [← toByte_bits a b op .twosComplement, Bool.eq_iff_iff, isNegative_iff, decide_eq_true_iff]
    exact (Mode.decode_neg_iff _).symm
  have hflip : decide (0 ≤ b) = !decide (b < 0) := by
    rw [← decide_not, decide_eq_decide]
    exact Int.not_lt.symm
  have hadder : (calculate a b op .twosComplement).flags.overflow =
      overflows a b op .twosComplement (calculate a b op .twosComplement).result .zero := rfl
  rw [hadder]
  cases op with
  | add =>
    rw [AdderOp.aluOp] at hresult ⊢
    rw [AluOp.overflow_evaluate_add, isNegative_lowByte ha, isNegative_lowByte hb, hresult]
    rfl
  | sub =>
    rw [AdderOp.aluOp] at hresult ⊢
    rw [AluOp.overflow_evaluate_sub, isNegative_lowByte ha, isNegative_lowByte hb, hresult, overflows, hflip]
    -- a sign flipped on one side is a comparison turned round
    cases decide (a < 0) <;> cases decide (b < 0) <;> rfl

end Report

/-! ## The machine's stage and the unit -/

/-- the stage keeps the unit's result with zero and negative, its carry unless it is a borrow, and no overflow -/
theorem State.execute_aluOp (s : State) (memorySize : ℕ) {op : MicroOp} {alu : AluOp} (h : op.aluOp? = some alu) :
    let out := alu.evaluate s.busA s.busB
    s.execute memorySize op =
      { s with
        aluResult := out.result
        aluFlags :=
          { zero := out.flags.zero
            negative := out.flags.negative
            carry := if alu = .sub then false else out.flags.carry
            overflow := false } } := by
  intro out
  have ha := s.busA.toNat_lt
  have hb := s.busB.toNat_lt
  cases op <;> cases h
  case aluAdd => rfl
  case aluSub =>
    have hcarry : decide (255 < (s.busA.toNat : ℤ) - s.busB.toNat) = false := by
      rw [decide_eq_false_iff_not]
      omega
    rw [State.execute, State.latchAlu, hcarry]
    rfl
  case aluAnd =>
    have hcarry : decide (255 < ((s.busA &&& s.busB).toNat : ℤ)) = false := by
      have hand := (s.busA &&& s.busB).toNat_lt
      rw [decide_eq_false_iff_not]
      omega
    rw [State.execute, State.latchAlu, hcarry]
    rfl

/-! ## All three -/

/-- **The three arithmetic units agree where they should.** For any integers, an addition or a subtraction gives the
byte in the adder that the unit gives for their low bytes, with the same zero. A sum carries in both or in neither; a
difference carries in the adder when the unit does not borrow and the subtrahend is not zero. On operands in range of
two's complement negative and overflow are the same. In every state of a machine the three arithmetic micro-operations
keep the result of the unit for the two buses, with its zero and negative; carry is the unit's too, except that a
difference has none, overflow is clear, and nothing else changes. -/
theorem arithmetic_units_agree :
    (∀ (a b : ℤ) (op : AdderOp) (mode : Mode),
      let report := Report.calculate a b op mode
      let out := op.aluOp.evaluate (lowByte a) (lowByte b)
      report.bits.toByte = out.result ∧
      report.flags.zero = out.flags.zero ∧
      (report.flags.carry =
        match op with
        | .add => out.flags.carry
        | .sub => !out.flags.carry && lowByte b != 0) ∧
      (mode = .twosComplement → mode.InRange a → mode.InRange b →
        report.flags.negative = out.flags.negative ∧ report.flags.overflow = out.flags.overflow)) ∧
    ∀ (s : State) (memorySize : ℕ) (op : MicroOp) (alu : AluOp), op.aluOp? = some alu →
      let out := alu.evaluate s.busA s.busB
      s.execute memorySize op =
        { s with
          aluResult := out.result
          aluFlags :=
            { zero := out.flags.zero
              negative := out.flags.negative
              carry := if alu = .sub then false else out.flags.carry
              overflow := false } } := by
  constructor
  · intro a b op mode report out
    refine ⟨Report.toByte_bits a b op mode, Report.zero_eq a b op mode, ?_, ?_⟩
    · cases op with
      | add => exact Report.carry_add_eq a b mode
      | sub => exact Report.carry_sub_eq a b mode
    · rintro rfl ha hb
      exact ⟨Report.negative_eq a b op, Report.overflow_eq op ha hb⟩
  · intro s memorySize op alu h
    exact s.execute_aluOp memorySize h

/-- 5 and -128: their difference borrows and overflows in the unit, and of both flags the machine keeps nothing -/
theorem arithmetic_units_agree_borrowing :
    let report := Report.calculate 5 (-128) .sub .twosComplement
    let out := AluOp.evaluate .sub (lowByte 5) (lowByte (-128))
    let s : State := { State.initial {} with busA := lowByte 5, busB := lowByte (-128) }
    Mode.twosComplement.InRange 5 ∧ Mode.twosComplement.InRange (-128) ∧
    out = ⟨133, { negative := true, carry := true, overflow := true }⟩ ∧
    report.bits.toByte = out.result ∧ report.flags.zero = out.flags.zero ∧
    report.flags.carry = (!out.flags.carry && lowByte (-128) != 0) ∧
    report.flags.negative = out.flags.negative ∧ report.flags.overflow = out.flags.overflow ∧
    (MicroOp.decode "ALU <- A - B").aluOp? = some .sub ∧
    s.execute 256 (MicroOp.decode "ALU <- A - B") =
      { s with aluResult := 133, aluFlags := { negative := true } } := by
  intro report out s
  obtain ⟨hadder, hstage⟩ := arithmetic_units_agree
  have ha : Mode.twosComplement.InRange 5 := by decide
  have hb : Mode.twosComplement.InRange (-128) := by decide
  have hout : out = ⟨133, { negative := true, carry := true, overflow := true }⟩ := by decide
  have hop : (MicroOp.decode "ALU <- A - B").aluOp? = some .sub := by decide
  obtain ⟨hbyte, hzero, hcarry, hsigns⟩ := hadder 5 (-128) .sub .twosComplement
  obtain ⟨hnegative, hoverflow⟩ := hsigns rfl ha hb
  exact ⟨ha, hb, hout, hbyte, hzero, hcarry, hnegative, hoverflow, hop, hstage s 256 _ _ hop⟩

end ByteMachine
