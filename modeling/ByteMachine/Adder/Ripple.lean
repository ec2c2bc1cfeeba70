/-
Ripple-carry addition: a chain of full adders, the least significant bit first.

Contents:
- `BitStep`: what one full adder of the chain did;
- `ripple`: the steps of adding two rows of bits;
- `Octet.add`: the sum of two octets, its final carry and its eight steps;
- `Octet.negate`: the two's complement.

Main statement: `value_ripple` (sum bits and final carry together are the sum of the two rows and the carry in).
-/
import ByteMachine.Octet

namespace ByteMachine

/-- what one full adder of the chain did -/
structure BitStep where
  position : Nat
  a : Bit
  b : Bit
  carryIn : Bit
  sumBit : Bit
  carryOut : Bit
  deriving DecidableEq, Repr

/-- how many of the three incoming bits are set -/
def BitStep.total (s : BitStep) : Nat :=
  s.a.toNat + s.b.toNat + s.carryIn.toNat

def BitStep.text (s : BitStep) : String :=
  "Bit " ++ Text.numeral s.position ++ ": " ++ s.a.text ++ " + " ++ s.b.text ++ " + " ++ s.carryIn.text ++
    "(carry) = " ++ Text.numeral s.total ++ " → bit=" ++ s.sumBit.text ++ ", carry=" ++ s.carryOut.text

/-- the steps of adding two rows of bits, from `position` on and with `carry` coming in -/
def ripple : Nat → Bit → List Bit → List Bit → List BitStep
  | position, carry, a :: as, b :: bs =>
    let out := Bit.fullAdd a b carry
    ⟨position, a, b, carry, out.1, out.2⟩ :: ripple (position + 1) out.2 as bs
  | _, _, _, _ => []

/-- the carry that leaves a chain of steps, when `carry` came in -/
def carryAfter (carry : Bit) (steps : List BitStep) : Bit :=
  (steps.getLast?.map BitStep.carryOut).getD carry

theorem length_ripple (position : Nat) (carry : Bit) (as bs : List Bit) (h : as.length = bs.length) :
    (ripple position carry as bs).length = as.length := by
  induction as generalizing position carry bs with
  | nil => rfl
  | cons a as ih =>
    cases bs with
    | nil => cases h
    | cons b bs =>
      simp only [List.length_cons, Nat.add_right_cancel_iff] at h
      simp [ripple, ih _ _ _ h]

theorem carryAfter_cons (carry : Bit) (s : BitStep) (steps : List BitStep) :
    carryAfter carry (s :: steps) = carryAfter s.carryOut steps := by
  cases steps with
  | nil => rfl
  | cons t ts => simp [carryAfter, List.getLast?_cons]

/-- sum bits and final carry together are the sum of the two rows and the carry in -/
theorem value_ripple (position : Nat) (carry : Bit) (as bs : List Bit) (h : as.length = bs.length) :
    Bit.value ((ripple position carry as bs).map BitStep.sumBit) +
        Bit.capacity as.length * (carryAfter carry (ripple position carry as bs)).toNat =
      Bit.value as + Bit.value bs + carry.toNat := by
  induction as generalizing position carry bs with
  | nil =>
    cases bs with
    | nil => simp [ripple, carryAfter, Bit.value, Bit.capacity]
    | cons b bs => cases h
  | cons a as ih =>
    cases bs with
    | nil => cases h
    | cons b bs =>
      simp only [List.length_cons, Nat.add_right_cancel_iff] at h
      have hr := ih (position + 1) (Bit.fullAdd a b carry).2 bs h
      have hf := Bit.fullAdd_toNat a b carry
      simp only [ripple, List.map_cons, Bit.value, carryAfter_cons, List.length_cons, Bit.capacity]
      generalize carryAfter _ (ripple (position + 1) _ as bs) = c at hr ⊢
      have : 2 * Bit.capacity as.length * c.toNat = 2 * (Bit.capacity as.length * c.toNat) := Nat.mul_assoc ..
      omega

/-- a sum of two octets -/
structure OctetSum where
  bits : Octet
  carry : Bit
  steps : List BitStep
  deriving DecidableEq

namespace Octet

def add (a b : Octet) : OctetSum :=
  let steps := ripple 0 .zero a.bits b.bits
  { bits := ⟨steps.map BitStep.sumBit, by
      rw [List.length_map, length_ripple _ _ _ _ (a.width.trans b.width.symm), a.width]⟩
    carry := carryAfter .zero steps
    steps }

/-- the two's complement: every bit complemented, plus one -/
def negate (o : Octet) : Octet :=
  (o.invert.add (ofByte 1)).bits

end Octet

end ByteMachine
