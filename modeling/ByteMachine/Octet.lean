/-
Octets: rows of exactly eight bits, the textual view of a byte.

Contents:
- `Octet`: eight bits, the least significant first;
- `Octet.ofByte`, `Octet.toByte`: the byte an octet stands for;
- `Octet.text`, `Octet.parse`: the eight characters, the most significant first, and reading them back. Reading allows
  blank characters around, a leading `0b`, and underscores anywhere after it.

Main statement: `toByte_ofByte` (a byte is the byte of its octet).
-/
import ByteMachine.Bit
import ByteMachine.Text.Blank
import ByteMachine.Text.Numeral

namespace ByteMachine

/-- a row of eight bits, the least significant first -/
structure Octet where
  bits : List Bit
  width : bits.length = 8
  deriving DecidableEq

namespace Octet

/-! ## Octets and bytes -/

def ofByte (b : UInt8) : Octet :=
  ⟨Bit.row 8 b.toNat, Bit.length_row 8 _⟩

def toByte (o : Octet) : UInt8 :=
  UInt8.ofNat (Bit.value o.bits)

/-- an octet keeps the byte it was made from -/
theorem toByte_ofByte (b : UInt8) : (ofByte b).toByte = b := by
  apply UInt8.toNat_inj.1
  have := b.toNat_lt
  simp only [toByte, ofByte, Bit.value_row, Bit.capacity, UInt8.toNat_ofNat']
  omega

/-! ## Single bits -/

/-- the bit at position `i`, counted from the least significant -/
def get (o : Octet) (i : Fin 8) : Bit :=
  o.bits.get (i.cast o.width.symm)

/-- the octet with the bit at position `i` replaced -/
def set (o : Octet) (i : Fin 8) (b : Bit) : Octet :=
  ⟨o.bits.set i b, by rw [List.length_set, o.width]⟩

/-- the most significant bit -/
def msb (o : Octet) : Bit :=
  o.get 7

/-- every bit complemented -/
def invert (o : Octet) : Octet :=
  ⟨o.bits.map Bit.invert, by rw [List.length_map, o.width]⟩

def isZero (o : Octet) : Bool :=
  o.bits.all fun b => !b.isSet

/-! ## Text -/

/-- the eight characters, the most significant bit first -/
def chars (o : Octet) : List Char :=
  o.bits.reverse.map Bit.toChar

def text (o : Octet) : String :=
  String.ofList o.chars

/-- the octet and its number, for people who look into the machine -/
def inspect (o : Octet) : String :=
  "Bits8(0b" ++ o.text ++ " = " ++ Text.numeral o.toByte.toNat ++ ")"

/-- why a text is no octet -/
inductive ParseError
  /-- the number of characters, underscores not counted, is not eight -/
  | wrongLength (got : Nat)
  /-- the rightmost character that is no bit -/
  | invalidChar (c : Char)
  deriving DecidableEq, Repr

def ParseError.message : ParseError → String
  | .wrongLength got => "expected 8 bits, got " ++ Text.numeral got
  | .invalidChar c => "invalid bit character: '" ++ String.singleton c ++ "' (expected 0/1)"

/-- the characters that stand for bits: without blanks around, a leading `0b` and underscores -/
def digitsOf (cs : List Char) : List Char :=
  let body :=
    match Text.trim cs with
    | '0' :: 'b' :: rest => rest
    | rest => rest
  body.filter (· != '_')

/-- one bit per character, or the first character that is none -/
def readBits : List Char → Except ParseError (List Bit)
  | [] => .ok []
  | c :: cs =>
    match Bit.ofChar? c with
    | none => .error (.invalidChar c)
    | some b => (readBits cs).map (b :: ·)

theorem length_of_readBits {cs : List Char} {bs : List Bit} (h : readBits cs = .ok bs) : bs.length = cs.length := by
  induction cs generalizing bs with
  | nil => cases h; rfl
  | cons c cs ih =>
    simp only [readBits] at h
    split at h
    · cases h
    · cases hr : readBits cs with
      | error e => rw [hr] at h; cases h
      | ok rest =>
        rw [hr] at h
        cases h
        simp [ih hr]

def parseChars (cs : List Char) : Except ParseError Octet :=
  let digits := digitsOf cs
  if hw : digits.length = 8 then
    match hr : readBits digits.reverse with
    | .error e => .error e
    | .ok bits => .ok ⟨bits, by rw [length_of_readBits hr, List.length_reverse, hw]⟩
  else .error (.wrongLength digits.length)

def parse (s : String) : Except ParseError Octet :=
  parseChars s.toList

end Octet

end ByteMachine
