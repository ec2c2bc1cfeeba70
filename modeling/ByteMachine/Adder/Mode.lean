/-
How eight bits are read as a number: unsigned, or in two's complement.

Contents:
- `Mode`: the two readings, their names and ranges;
- `Mode.encode`: the octet of an integer, cut to eight bits;
- `Mode.decode`: the integer of an octet;
- `Mode.clamp`: the nearest integer in range.

Main statements: `toByte_encode`, `decode_unsigned` and `decode_twosComplement` (the byte between an integer and its
octet), and `decode_inRange`.
-/
import ByteMachine.Alu
import ByteMachine.Octet

namespace ByteMachine

inductive Mode
  | unsigned
  | twosComplement
  deriving DecidableEq, Repr

/-- a name that is no mode -/
structure UnknownMode where
  name : String
  deriving DecidableEq, Repr

def UnknownMode.message (e : UnknownMode) : String :=
  "unknown mode: " ++ e.name ++ " (expected unsigned or twos-complement)"

namespace Mode

def name : Mode → String
  | .unsigned => "unsigned"
  | .twosComplement => "twos-complement"

/-- the names and short names of each mode -/
def names : List (String × Mode) :=
  [("unsigned", .unsigned), ("u", .unsigned), ("twos-complement", .twosComplement), ("twos", .twosComplement),
    ("signed", .twosComplement), ("s", .twosComplement)]

/-- the mode with this name; blanks around it and the case of ASCII letters do not matter -/
def parse (s : String) : Except UnknownMode Mode :=
  let key := (Text.trim s.toList).map Char.toLower
  match names.find? fun entry => entry.1.toList == key with
  | some (_, mode) => .ok mode
  | none => .error ⟨s⟩

/-- the least integer in range -/
def least : Mode → Int
  | .unsigned => 0
  | .twosComplement => -128

/-- the greatest integer in range -/
def greatest : Mode → Int
  | .unsigned => 255
  | .twosComplement => 127

def InRange (mode : Mode) (n : Int) : Prop :=
  mode.least ≤ n ∧ n ≤ mode.greatest

instance (mode : Mode) (n : Int) : Decidable (mode.InRange n) :=
  inferInstanceAs (Decidable (_ ∧ _))

/-- the integer in range that is nearest to `n` -/
def clamp (mode : Mode) (n : Int) : Int :=
  if n < mode.least then mode.least else if mode.greatest < n then mode.greatest else n

/-- the number whose lowest eight bits encode `n`: a negative `n` is moved up by 256 in two's complement -/
def lift (mode : Mode) (n : Int) : Int :=
  if mode = .twosComplement ∧ n < 0 then 256 + n else n

def encode (mode : Mode) (n : Int) : Octet :=
  Octet.ofByte (lowByte (mode.lift n))

def decode (mode : Mode) (o : Octet) : Int :=
  let n : Int := o.toByte.toNat
  if mode = .twosComplement ∧ 128 ≤ n then n - 256 else n

/-- encoding keeps an integer modulo 256, whatever its size -/
theorem toByte_encode (mode : Mode) (n : Int) : ((mode.encode n).toByte.toNat : Int) = n % 256 := by
  rw [encode, Octet.toByte_ofByte, toNat_lowByte, lift]
  split <;> omega

theorem decode_unsigned (o : Octet) : Mode.unsigned.decode o = o.toByte.toNat := by
  rw [decode, if_neg]
  rintro ⟨h, -⟩
  cases h

theorem decode_twosComplement (o : Octet) :
    Mode.twosComplement.decode o =
      if (128 : Int) ≤ o.toByte.toNat then (o.toByte.toNat : Int) - 256 else o.toByte.toNat := by
  by_cases h : (128 : Int) ≤ o.toByte.toNat
  · rw [decode, if_pos ⟨rfl, h⟩, if_pos h]
  · rw [decode, if_neg fun h' => h h'.2, if_neg h]

/-- what is decoded is in range -/
theorem decode_inRange (mode : Mode) (o : Octet) : mode.InRange (mode.decode o) := by
  have h : o.toByte.toNat < 256 := o.toByte.toNat_lt
  cases mode with
  | unsigned =>
    rw [decode_unsigned]
    unfold InRange least greatest
    dsimp only
    omega
  | twosComplement =>
    rw [decode_twosComplement]
    unfold InRange least greatest
    dsimp only
    split <;> omega

end Mode

end ByteMachine
