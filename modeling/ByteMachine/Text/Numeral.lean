/-
Numerals: whole numbers written with digits.

Contents:
- `readDigits`: the value of a row of digits, read from the left; the first position that is no digit, or that takes
  the value out of bounds, ends the reading, so of two faults the leftmost is reported;
- `readUnsigned`, `readSigned`: a whole numeral with its optional sign, below a bound;
- `decimal`, `padded`, `hexByte`: writing.

Main statement: `readDigits_toDigits` (what `decimal` writes is read back).
-/

namespace ByteMachine.Text

/-! ## Reading -/

/-- why a numeral is refused -/
inductive NumeralError
  /-- there is nothing to read -/
  | empty
  /-- a character is no digit of the base, or a sign stands alone -/
  | badDigit
  /-- the value is above the greatest allowed -/
  | tooLarge
  /-- the value is below the least allowed -/
  | tooSmall
  deriving DecidableEq, Repr

def NumeralError.message : NumeralError → String
  | .empty => "cannot parse integer from empty string"
  | .badDigit => "invalid digit found in string"
  | .tooLarge => "number too large to fit in target type"
  | .tooSmall => "number too small to fit in target type"

/-- is `c` one of the ten ASCII digits? -/
def isDigit (c : Char) : Bool :=
  '0' ≤ c && c ≤ '9'

/-- the value of a digit in base 2, 10 or 16; letters of either case stand for ten to fifteen -/
def digit? (base : Nat) (c : Char) : Option Nat :=
  let value :=
    if isDigit c then some (c.toNat - '0'.toNat)
    else if 'a' ≤ c && c ≤ 'f' then some (c.toNat - 'a'.toNat + 10)
    else if 'A' ≤ c && c ≤ 'F' then some (c.toNat - 'A'.toNat + 10)
    else none
  value.filter (· < base)

/-- the value of a row of digits that continues the number `acc`, kept below `bound` at every position -/
def readDigits (base bound : Nat) (beyond : NumeralError) : Nat → List Char → Except NumeralError Nat
  | acc, [] => .ok acc
  | acc, c :: cs =>
    match digit? base c with
    | none => .error .badDigit
    | some d =>
      if base * acc + d < bound then readDigits base bound beyond (base * acc + d) cs else .error beyond

/-- at least one digit, then only digits -/
def readMagnitude (base bound : Nat) (beyond : NumeralError) : List Char → Except NumeralError Nat
  | [] => .error .badDigit
  | cs => readDigits base bound beyond 0 cs

/-- a numeral below `bound`, with an optional plus sign -/
def readUnsigned (base bound : Nat) : List Char → Except NumeralError Nat
  | [] => .error .empty
  | '+' :: cs => readMagnitude base bound .tooLarge cs
  | cs => readMagnitude base bound .tooLarge cs

/-- a numeral from `-bound` up to, but not including, `bound`, with an optional sign -/
def readSigned (base bound : Nat) : List Char → Except NumeralError Int
  | [] => .error .empty
  | '+' :: cs => (readMagnitude base bound .tooLarge cs).map Int.ofNat
  | '-' :: cs => (readMagnitude base (bound + 1) .tooSmall cs).map fun n => -Int.ofNat n
  | cs => (readMagnitude base bound .tooLarge cs).map Int.ofNat

/-- one more than the greatest 64-bit number -/
def bound64 : Nat := 0x10000000000000000

/-! ## Writing -/

/-- the decimal numeral of a number -/
def decimal (n : Nat) : List Char :=
  Nat.toDigits 10 n

/-- `decimal` as a string -/
def numeral (n : Nat) : String :=
  String.ofList (decimal n)

/-- the decimal numeral of an integer, a minus sign before the negative ones -/
def integer (n : Int) : String :=
  String.ofList (if n < 0 then '-' :: decimal n.natAbs else decimal n.natAbs)

/-- `cs` filled up with `fill` at its left to at least `width` characters -/
def padLeft (width : Nat) (fill : Char) (cs : List Char) : List Char :=
  List.replicate (width - cs.length) fill ++ cs

/-- `cs` filled up with blanks at its right to at least `width` characters -/
def padRight (width : Nat) (cs : List Char) : List Char :=
  cs ++ List.replicate (width - cs.length) ' '

/-- the decimal numeral of at least `width` digits, zeros first -/
def padded (width n : Nat) : String :=
  String.ofList (padLeft width '0' (decimal n))

/-- one hexadecimal digit, with the capital letters A to F -/
def hexDigit (n : Nat) : Char :=
  if n < 10 then Char.ofNat ('0'.toNat + n) else Char.ofNat ('A'.toNat + (n - 10))

/-- a byte as two hexadecimal digits -/
def hexByte (b : UInt8) : String :=
  String.ofList [hexDigit (b.toNat / 16), hexDigit (b.toNat % 16)]

/-! ## Reading back -/

theorem isDigit_of_mem_decimal {n : Nat} {c : Char} (h : c ∈ decimal n) : isDigit c = true :=
  Nat.isDigit_of_mem_toDigits (by decide) (by decide) h

theorem digit?_digitChar : ∀ d < 10, digit? 10 d.digitChar = some d := by decide

theorem readDigits_append (base bound : Nat) (beyond : NumeralError) (acc : Nat) (cs ds : List Char) :
    readDigits base bound beyond acc (cs ++ ds) =
      (readDigits base bound beyond acc cs).bind fun n => readDigits base bound beyond n ds := by
  induction cs generalizing acc with
  | nil => rfl
  | cons c cs ih =>
    simp only [List.cons_append, readDigits]
    cases digit? base c with
    | none => rfl
    | some d =>
      by_cases h : base * acc + d < bound
      · simp only [h, ite_true, ih]
      · simp only [h, ite_false]; rfl

/-- what is read is below the bound -/
theorem lt_of_readDigits {base bound : Nat} {beyond : NumeralError} {acc : Nat} {cs : List Char} {n : Nat}
    (h : readDigits base bound beyond acc cs = .ok n) (ha : acc < bound) : n < bound := by
  induction cs generalizing acc with
  | nil =>
    cases h
    exact ha
  | cons c cs ih =>
    rw [readDigits] at h
    split at h
    · cases h
    · next d _ =>
      split at h
      · next hd => exact ih h hd
      · cases h

/-- the decimal numeral of a number below the bound is read back -/
theorem readDigits_toDigits (bound : Nat) (beyond : NumeralError) (n : Nat) (h : n < bound) :
    readDigits 10 bound beyond 0 (decimal n) = .ok n := by
  induction n using Nat.strongRecOn with
  | _ n ih =>
    by_cases hn : n < 10
    · rw [decimal, Nat.toDigits_of_lt_base hn]
      simp [readDigits, digit?_digitChar n hn, h]
    · have h10 : 10 ≤ n := Nat.le_of_not_lt hn
      have hd : n % 10 < 10 := Nat.mod_lt _ (by omega)
      have hq := ih (n / 10) (by omega) (by omega)
      rw [decimal] at hq
      rw [decimal, Nat.toDigits_of_base_le (by omega) h10, readDigits_append, hq]
      have hs : 10 * (n / 10) + n % 10 = n := by omega
      simp [Except.bind, readDigits, digit?_digitChar _ hd, hs, h]

end ByteMachine.Text
