/-
Values on a command line.

Contents:
- `ValueError`: why a value is refused;
- `readByte`: a byte in decimal, in hexadecimal after `0x` or in binary after `0b`, where underscores may stand between
  the binary digits; blanks around it and a plus sign before the digits do not matter;
- `readAssignment`: a number and a byte, with an equals sign between them;
- `readWord`, `readInt32`: numbers of 64 bits, and integers of 32 bits.
-/
import ByteMachine.Adder.Report

namespace ByteMachine

/-- why a value on a command line is refused -/
inductive ValueError
  | aluOp (e : UnknownAluOp)
  | adderOp (e : UnknownAdderOp)
  | mode (e : UnknownMode)
  /-- the text, without the blanks around it, is no byte -/
  | notByte (text : String)
  /-- there is no equals sign -/
  | notAssignment (text : String)
  | notIndex (text : String)
  | numeral (e : Text.NumeralError)
  | notInt32 (n : Int)
  /-- nothing where a path must stand -/
  | emptyPath
  deriving DecidableEq, Repr

namespace ValueError

/-- the text between single quotes -/
def quoted (text : String) : String :=
  "'" ++ text ++ "'"

/-- what is said of the value itself; there is nothing to say of an empty path -/
def message? : ValueError → Option String
  | .aluOp e => e.message
  | .adderOp e => e.message
  | .mode e => e.message
  | .notByte text => quoted text ++ " is not a byte (0-255)"
  | .notAssignment text => "expected INDEX=VALUE, got " ++ quoted text
  | .notIndex text => quoted text ++ " is not an index"
  | .numeral e => e.message
  | .notInt32 n => Text.integer n ++ " is not in -2147483648..=2147483647"
  | .emptyPath => none

end ValueError

/-! ## Bytes -/

/-- the magnitude that a text stands for, the base told by how it starts -/
def readByteDigits : List Char → Except Text.NumeralError Nat
  | '0' :: 'x' :: ds => Text.readUnsigned 16 256 ds
  | '0' :: 'X' :: ds => Text.readUnsigned 16 256 ds
  | '0' :: 'b' :: ds => Text.readUnsigned 2 256 (ds.filter (· != '_'))
  | '0' :: 'B' :: ds => Text.readUnsigned 2 256 (ds.filter (· != '_'))
  | ds => Text.readUnsigned 10 256 ds

def readByte (s : String) : Except ValueError UInt8 :=
  let cs := Text.trim s.toList
  match readByteDigits cs with
  | .ok n => .ok (UInt8.ofNat n)
  | .error _ => .error (.notByte (String.ofList cs))

/-! ## Assignments -/

/-- the text before the first equals sign and the text after it -/
def splitAssignment : List Char → Option (List Char × List Char)
  | [] => none
  | '=' :: cs => some ([], cs)
  | c :: cs => (splitAssignment cs).map fun (before, after) => (c :: before, after)

def readAssignment (s : String) : Except ValueError (Nat × UInt8) :=
  match splitAssignment s.toList with
  | none => .error (.notAssignment s)
  | some (before, after) =>
    match Text.readUnsigned 10 Text.bound64 (Text.trim before) with
    | .error _ => .error (.notIndex (String.ofList before))
    | .ok index => (readByte (String.ofList after)).map fun b => (index, b)

/-! ## Numbers and paths -/

def readWord (s : String) : Except ValueError Nat :=
  (Text.readUnsigned 10 Text.bound64 s.toList).mapError .numeral

/-- an integer of 32 bits; one that does not fit into 64 bits is refused as a numeral -/
def readInt32 (s : String) : Except ValueError Int :=
  match Text.readSigned 10 0x8000000000000000 s.toList with
  | .error e => .error (.numeral e)
  | .ok n => if -2147483648 ≤ n ∧ n ≤ 2147483647 then .ok n else .error (.notInt32 n)

def readPath (s : String) : Except ValueError String :=
  if s.isEmpty then .error .emptyPath else .ok s

end ByteMachine
