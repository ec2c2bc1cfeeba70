/-
The derivation of the serial adder proves its result.

A derivation is meant to be checked by hand: every line adds three digits and says what it writes and what it carries.
The digits are those of the two operands as they are printed, the carry is what the line before handed on, and the
digits that are written are those of the result. So whoever believes the lines believes the result.

The lines come from the chain of full adders, which hands its carry on from one step to the next. What is read off here
is the chain seen from a place in the middle: the carry that has reached it, and the step that is taken there.

Contents:
- `carryInto`: the carry that reaches a place of two rows;
- `getElem?_ripple`, `carryAfter_ripple`: the chain at a place, and at its end;
- `Octet.steps_add`, `Octet.get_add`: the steps and the digits of a sum of octets;
- `placeLine`: the line of one place, from the numbers in it;
- `Derives`: what it takes for lines to be a derivation.

Main statement: `Report.derivation_proves_result`.
-/
import Mathlib.Tactic
import ByteMachine.Proofs.Adder.Sums

namespace ByteMachine

/-! ## The chain at a place -/

/-- the carry that reaches place `i` of two rows, when `carry` comes in at the first -/
def carryInto : Bit → List Bit → List Bit → ℕ → Bit
  | carry, a :: as, b :: bs, i + 1 => carryInto (Bit.fullAdd a b carry).2 as bs i
  | carry, _, _, _ => carry

variable {as bs : List Bit} {a b : Bit} {i : ℕ}

@[simp] theorem carryInto_zero (carry : Bit) (as bs : List Bit) : carryInto carry as bs 0 = carry := by
  cases as <;> cases bs <;> rfl

/-- what leaves a place is the carry of its full adder -/
theorem carryInto_succ (carry : Bit) (ha : as[i]? = some a) (hb : bs[i]? = some b) :
    carryInto carry as bs (i + 1) = (Bit.fullAdd a b (carryInto carry as bs i)).2 := by
  induction i generalizing carry as bs with
  | zero =>
    cases as with
    | nil => cases ha
    | cons a' as =>
      cases bs with
      | nil => cases hb
      | cons b' bs =>
        cases ha
        cases hb
        rw [carryInto, carryInto_zero, carryInto_zero]
  | succ i ih =>
    cases as with
    | nil => cases ha
    | cons a' as =>
      cases bs with
      | nil => cases hb
      | cons b' bs => exact ih _ ha hb

/-- the full adder at a place, when `carry` reaches it -/
def fullStep (position : ℕ) (a b carry : Bit) : BitStep :=
  ⟨position, a, b, carry, (Bit.fullAdd a b carry).1, (Bit.fullAdd a b carry).2⟩

/-- **The chain at a place** is the full adder of its digits, with the carry that has come that far. -/
theorem getElem?_ripple (position : ℕ) (carry : Bit) (ha : as[i]? = some a) (hb : bs[i]? = some b) :
    (ripple position carry as bs)[i]? = some (fullStep (position + i) a b (carryInto carry as bs i)) := by
  induction i generalizing position carry as bs with
  | zero =>
    cases as with
    | nil => cases ha
    | cons a' as =>
      cases bs with
      | nil => cases hb
      | cons b' bs =>
        cases ha
        cases hb
        rfl
  | succ i ih =>
    cases as with
    | nil => cases ha
    | cons a' as =>
      cases bs with
      | nil => cases hb
      | cons b' bs =>
        have hrest := ih (position + 1) (Bit.fullAdd a' b' carry).2 ha hb
        rw [Nat.add_right_comm] at hrest
        exact hrest

/-- the carry that leaves the chain is the one behind its last place -/
theorem carryAfter_ripple (position : ℕ) (carry : Bit) (h : as.length = bs.length) :
    carryAfter carry (ripple position carry as bs) = carryInto carry as bs as.length := by
  induction as generalizing position carry bs with
  | nil => rfl
  | cons a as ih =>
    cases bs with
    | nil => cases h
    | cons b bs =>
      rw [ripple, carryAfter_cons]
      exact ih (position + 1) _ (Nat.succ.inj h)

/-! ## Sums of octets -/

namespace Octet

variable (x y : Octet)

theorem getElem?_bits (o : Octet) (i : Fin 8) : o.bits[(i : ℕ)]? = some (o.get i) :=
  List.getElem?_eq_getElem _

/-- a printed octet has its digits from the right to the left -/
theorem reverse_text (o : Octet) : o.text.toList.reverse = List.ofFn fun i => (o.get i).toChar := by
  have hbits : o.bits = List.ofFn o.get := by
    apply List.ext_getElem?
    intro i
    rcases Nat.lt_or_ge i 8 with hi | hi
    · rw [o.getElem?_bits ⟨i, hi⟩, List.getElem?_ofFn, dif_pos hi]
    · rw [List.getElem?_eq_none (by rw [o.width]; exact hi), List.getElem?_ofFn, dif_neg (Nat.not_lt.2 hi)]
  rw [toList_text, List.reverse_reverse, hbits, List.map_ofFn]
  rfl

/-- the carry that reaches a place of the sum of two octets -/
def carryAt (x y : Octet) (i : ℕ) : Bit :=
  carryInto .zero x.bits y.bits i

theorem carryAt_succ (i : Fin 8) : x.carryAt y (i + 1) = (Bit.fullAdd (x.get i) (y.get i) (x.carryAt y i)).2 :=
  carryInto_succ .zero (x.getElem?_bits i) (y.getElem?_bits i)

theorem carry_add : (x.add y).carry = x.carryAt y 8 := by
  have hcarry := carryAfter_ripple 0 .zero (x.width.trans y.width.symm)
  rw [x.width] at hcarry
  exact hcarry

theorem getElem?_steps_add (i : Fin 8) :
    (x.add y).steps[(i : ℕ)]? = some (fullStep i (x.get i) (y.get i) (x.carryAt y i)) := by
  have hstep := getElem?_ripple 0 .zero (x.getElem?_bits i) (y.getElem?_bits i)
  rw [Nat.zero_add] at hstep
  exact hstep

/-- the steps of a sum, one for each place -/
theorem steps_add : (x.add y).steps = List.ofFn fun i : Fin 8 => fullStep i (x.get i) (y.get i) (x.carryAt y i) := by
  have hlength : (x.add y).steps.length = 8 := by
    have hripple := length_ripple 0 .zero x.bits y.bits (x.width.trans y.width.symm)
    exact hripple.trans x.width
  apply List.ext_getElem?
  intro i
  rcases Nat.lt_or_ge i 8 with hi | hi
  · rw [x.getElem?_steps_add y ⟨i, hi⟩, List.getElem?_ofFn, dif_pos hi]
  · rw [List.getElem?_eq_none (hlength.trans_le hi), List.getElem?_ofFn, dif_neg (Nat.not_lt.2 hi)]

/-- the digits of a sum are what its steps write -/
theorem get_add (i : Fin 8) : (x.add y).bits.get i = (Bit.fullAdd (x.get i) (y.get i) (x.carryAt y i)).1 := by
  have hbit : (x.add y).bits.bits[(i : ℕ)]? = (x.add y).steps[(i : ℕ)]?.map BitStep.sumBit := List.getElem?_map
  rw [getElem?_bits, getElem?_steps_add] at hbit
  exact Option.some.inj hbit

/-- **Each place adds up**: both digits and the carry that reaches it are what is written and twice what is carried. -/
theorem add_at_place (i : Fin 8) :
    (x.get i).toNat + (y.get i).toNat + (x.carryAt y i).toNat =
      ((x.add y).bits.get i).toNat + 2 * (x.carryAt y (i + 1)).toNat := by
  rw [get_add, carryAt_succ]
  exact (Bit.fullAdd_toNat _ _ _).symm

end Octet

/-! ## Lines -/

/-- the line of one place: two digits and a carry, their sum, and what of the sum is written and what is carried on -/
def placeLine (place x y carry sum written carried : ℕ) : String :=
  "Bit " ++ Text.numeral place ++ ": " ++ Text.numeral x ++ " + " ++ Text.numeral y ++ " + " ++ Text.numeral carry ++
    "(carry) = " ++ Text.numeral sum ++ " → bit=" ++ Text.numeral written ++ ", carry=" ++ Text.numeral carried

theorem Bit.text_eq_numeral (b : Bit) : b.text = Text.numeral b.toNat := by
  cases b <;> decide

theorem BitStep.text_eq_placeLine (s : BitStep) :
    s.text = placeLine s.position s.a.toNat s.b.toNat s.carryIn.toNat (s.a.toNat + s.b.toNat + s.carryIn.toNat)
      s.sumBit.toNat s.carryOut.toNat := by
  unfold text placeLine
  rw [s.a.text_eq_numeral, s.b.text_eq_numeral, s.carryIn.text_eq_numeral, s.sumBit.text_eq_numeral,
    s.carryOut.text_eq_numeral]
  rfl

namespace Report

/-- What it takes for the lines of a report to derive its bits and its carry from the octets `x` and `y`, when
`carry i` is the carry that reaches place `i`. -/
structure Derives (report : Report) (header : List String) (x y : Octet) (carry : ℕ → Bit) : Prop where
  /-- the header, both operands, an empty line, the title, one line for each place, and what is carried out last -/
  lines : report.lines =
    header ++ ["Operand A: " ++ x.text, "Operand B: " ++ y.text, "", "Bitwise addition from right to left:"] ++
      (List.ofFn fun i : Fin 8 =>
        placeLine i (x.get i).toNat (y.get i).toNat (carry i).toNat
          ((x.get i).toNat + (y.get i).toNat + (carry i).toNat) (report.bits.get i).toNat (carry (i + 1)).toNat) ++
      if report.flags.carry then ["Final carry: 1"] else []
  /-- the digits of operands and result are the printed ones, counted from the right -/
  printed : ∀ o ∈ [x, y, report.bits], o.text.toList.reverse = List.ofFn fun i => (o.get i).toChar
  /-- nothing is carried into the first place -/
  first : carry 0 = .zero
  /-- what is written and twice what is carried on make the sum of each place -/
  sum : ∀ i : Fin 8,
    (x.get i).toNat + (y.get i).toNat + (carry i).toNat = (report.bits.get i).toNat + 2 * (carry (i + 1)).toNat
  /-- what leaves the last place is the carry of the report -/
  last : (carry 8).isSet = report.flags.carry

theorem carryLines_eq (carry : Bit) : carryLines carry = if carry.isSet then ["Final carry: 1"] else [] := by
  cases carry <;> decide

theorem bitLines_eq (x y : Octet) :
    (x.add y).steps.map BitStep.text = List.ofFn fun i : Fin 8 =>
      placeLine i (x.get i).toNat (y.get i).toNat (x.carryAt y i).toNat
        ((x.get i).toNat + (y.get i).toNat + (x.carryAt y i).toNat) ((x.add y).bits.get i).toNat
        (x.carryAt y (i + 1)).toNat := by
  rw [x.steps_add y, List.map_ofFn]
  refine congrArg List.ofFn (funext fun i => ?_)
  rw [Function.comp_apply, BitStep.text_eq_placeLine, x.get_add y, x.carryAt_succ y]
  rfl

/-- the lines of a calculation derive it, below the header of its operation -/
theorem derives_calculate (a b : ℤ) (op : AdderOp) (mode : Mode) :
    Derives (calculate a b op mode) (heading a b op mode) (mode.encode a) (addend b op mode)
      ((mode.encode a).carryAt (addend b op mode)) where
  lines := by
    have hcarry := carryLines_eq ((mode.encode a).add (addend b op mode)).carry
    have hbits := bitLines_eq (mode.encode a) (addend b op mode)
    show heading a b op mode ++ operandLines _ _ ++ List.map BitStep.text _ ++ carryLines _ = _
    rw [hbits, hcarry]
    rfl
  printed o _ := o.reverse_text
  first := carryInto_zero _ _ _
  sum i := Octet.add_at_place _ _ i
  last := congrArg Bit.isSet (Octet.carry_add _ _).symm

/-- **A derivation proves its result.** Whatever the operands, the operation and the mode, the lines of a calculation
are a derivation of its bits and its carry from the first operand's octet and a second octet. An addition has one line
above the operands, and adds the octet of its second operand. A subtraction has three, and what it adds is the two's
complement that it prints there, the octet of its second operand taken from 256. -/
theorem derivation_proves_result (a b : ℤ) (op : AdderOp) (mode : Mode) :
    ∃ (y : Octet) (carry : ℕ → Bit),
      let header :=
        match op with
        | .add => ["Addition: " ++ Text.integer a ++ " + " ++ Text.integer b]
        | .sub =>
          ["Subtraction: " ++ Text.integer a ++ " - " ++ Text.integer b,
            "Rewritten as: " ++ Text.integer a ++ " + (-" ++ Text.integer b ++ ")",
            "Two's complement of " ++ Text.integer b ++ ": " ++ y.text]
      Derives (calculate a b op mode) header (mode.encode a) y carry ∧
      match op with
      | .add => y = mode.encode b
      | .sub => y.toByte.toNat = (256 - (mode.encode b).toByte.toNat) % 256 := by
  refine ⟨addend b op mode, (mode.encode a).carryAt (addend b op mode), ?_⟩
  have hderives := derives_calculate a b op mode
  cases op with
  | add => exact ⟨hderives, rfl⟩
  | sub => exact ⟨hderives, Octet.toNat_negate (mode.encode b)⟩

-- both operands are out of range, and only the last place carries
example : (calculate (-383) 300 .sub .unsigned).lines.drop 3 =
    ["Operand A: 10000001", "Operand B: 11010100", "", "Bitwise addition from right to left:",
      "Bit 0: 1 + 0 + 0(carry) = 1 → bit=1, carry=0", "Bit 1: 0 + 0 + 0(carry) = 0 → bit=0, carry=0",
      "Bit 2: 0 + 1 + 0(carry) = 1 → bit=1, carry=0", "Bit 3: 0 + 0 + 0(carry) = 0 → bit=0, carry=0",
      "Bit 4: 0 + 1 + 0(carry) = 1 → bit=1, carry=0", "Bit 5: 0 + 0 + 0(carry) = 0 → bit=0, carry=0",
      "Bit 6: 0 + 1 + 0(carry) = 1 → bit=1, carry=0", "Bit 7: 1 + 1 + 0(carry) = 2 → bit=0, carry=1",
      "Final carry: 1"] := by decide +kernel

end Report

end ByteMachine
