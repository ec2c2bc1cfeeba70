/-
JSON values.

Contents:
- `Json`: a value. Objects keep the order of their members, and a key may occur twice;
- `Json.isPlain`: a value without foreign parts, which is what the encoders of this library make.
-/

namespace ByteMachine

/-- a JSON value -/
inductive Json
  | null
  | bool (b : Bool)
  /-- a number written as an integer -/
  | int (n : Int)
  | str (s : String)
  | list (items : List Json)
  | object (members : List (String × Json))
  /-- a well-formed value that can only be skipped: a number with a fraction or an exponent, a negative zero, a text
  with half a surrogate pair, or an object with such a key -/
  | foreign
  deriving Repr

namespace Json

mutual

/-- no part of the value is foreign -/
def isPlain : Json → Bool
  | .foreign => false
  | .list items => arePlain items
  | .object members => membersPlain members
  | _ => true

def arePlain : List Json → Bool
  | [] => true
  | j :: js => isPlain j && arePlain js

def membersPlain : List (String × Json) → Bool
  | [] => true
  | (_, j) :: ms => isPlain j && membersPlain ms

end

/-- a number -/
def nat (n : Nat) : Json :=
  .int n

/-- a byte as a number -/
def byte (b : UInt8) : Json :=
  .nat b.toNat

/-- a text, or null -/
def optionalText : Option String → Json
  | none => .null
  | some s => .str s

end Json

end ByteMachine
