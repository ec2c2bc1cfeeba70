/-
JSON tokens: the smallest meaningful pieces of a JSON text.

A text between quotes may hold any character from the space on, and escapes. An escaped code unit is half of a pair or
a character of its own; a text with half a pair is well-formed, but it can only be skipped. The same holds for numbers
that are not written as integers, and for the negative zero.

Contents:
- `Token`: a token;
- `scanText`, `scanNumber`: one token from the front of a text;
- `tokenize`: all tokens of a text, without the blanks between them;
- `escapeChar`, `quote`: writing texts.

Main statement: `decodeUnits_chars` (units that stand for characters give these characters).
-/
import ByteMachine.Text.Numeral

namespace ByteMachine.Json

inductive Token
  | listOpen
  | listClose
  | objectOpen
  | objectClose
  | comma
  | colon
  | null
  | bool (b : Bool)
  | int (n : Int)
  | str (s : String)
  /-- a number that is no plain integer -/
  | foreignNumber
  /-- a text with half a surrogate pair -/
  | foreignText
  deriving DecidableEq, Repr

/-! ## Texts -/

/-- the value of a hexadecimal digit -/
def hexValue? (c : Char) : Option Nat :=
  Text.digit? 16 c

/-- the code unit that four hexadecimal digits stand for -/
def codeUnit? (a b c d : Char) : Option Nat := do
  let a ← hexValue? a
  let b ← hexValue? b
  let c ← hexValue? c
  let d ← hexValue? d
  return ((a * 16 + b) * 16 + c) * 16 + d

/-- the character that a one-letter escape stands for -/
def simpleEscape? : Char → Option Char
  | '"' => some '"'
  | '\\' => some '\\'
  | '/' => some '/'
  | 'b' => some '\x08'
  | 'f' => some '\x0c'
  | 'n' => some '\n'
  | 'r' => some '\r'
  | 't' => some '\t'
  | _ => none

/-- a text up to its closing quote, as code points and code units, and what follows it -/
def scanText : List Char → Option (List Nat × List Char)
  | [] => none
  | '"' :: cs => some ([], cs)
  | '\\' :: 'u' :: a :: b :: c :: d :: cs =>
    match codeUnit? a b c d with
    | none => none
    | some unit => (scanText cs).map fun (units, rest) => (unit :: units, rest)
  | '\\' :: e :: cs =>
    match simpleEscape? e with
    | none => none
    | some c => (scanText cs).map fun (units, rest) => (c.toNat :: units, rest)
  | c :: cs =>
    if c < ' ' then none else (scanText cs).map fun (units, rest) => (c.toNat :: units, rest)

/-- the first half of a surrogate pair? -/
def isHighHalf (n : Nat) : Bool :=
  0xd800 ≤ n && n ≤ 0xdbff

/-- the second half of a surrogate pair? -/
def isLowHalf (n : Nat) : Bool :=
  0xdc00 ≤ n && n ≤ 0xdfff

/-- the characters that the units stand for, if no half of a pair stands alone -/
def decodeUnits : List Nat → Option (List Char)
  | [] => some []
  | n :: ns =>
    if isHighHalf n then
      match ns with
      | [] => none
      | m :: ms =>
        if isLowHalf m then
          (decodeUnits ms).map (Char.ofNat (0x10000 + (n - 0xd800) * 0x400 + (m - 0xdc00)) :: ·)
        else none
    else if isLowHalf n then none
    else (decodeUnits ns).map (Char.ofNat n :: ·)

def textToken (units : List Nat) : Token :=
  match decodeUnits units with
  | some cs => .str (String.ofList cs)
  | none => .foreignText

/-- units that stand for characters give these characters -/
theorem decodeUnits_chars (cs : List Char) : decodeUnits (cs.map Char.toNat) = some cs := by
  induction cs with
  | nil => rfl
  | cons c cs ih =>
    have hv : c.toNat < 0xd800 ∨ 0xdfff < c.toNat := by
      rcases c.valid with h | ⟨h, _⟩
      · exact .inl h
      · exact .inr h
    have h1 : isHighHalf c.toNat = false := by
      simp only [isHighHalf, Bool.and_eq_false_iff, decide_eq_false_iff_not]; omega
    have h2 : isLowHalf c.toNat = false := by
      simp only [isLowHalf, Bool.and_eq_false_iff, decide_eq_false_iff_not]; omega
    rw [List.map_cons, decodeUnits.eq_def]
    simp [h1, h2, ih]

/-! ## Numbers -/

/-- a row of digits and what follows it -/
def spanDigits (cs : List Char) : List Char × List Char :=
  (cs.takeWhile Text.isDigit, cs.dropWhile Text.isDigit)

/-- the digits of a whole part: a single zero, or digits that do not start with zero -/
def scanWhole : List Char → Option (List Char × List Char)
  | '0' :: cs => some (['0'], cs)
  | cs =>
    let (digits, rest) := spanDigits cs
    if digits.isEmpty then none else some (digits, rest)

/-- at least one digit, and what follows -/
def skipDigits (cs : List Char) : Option (List Char) :=
  let (digits, rest) := spanDigits cs
  if digits.isEmpty then none else some rest

/-- what follows a fraction, if there is one; tells whether there was -/
def skipFraction : List Char → Option (Bool × List Char)
  | '.' :: cs => (skipDigits cs).map (true, ·)
  | cs => some (false, cs)

/-- the sign that an exponent may have -/
def skipSign : List Char → List Char
  | '+' :: cs => cs
  | '-' :: cs => cs
  | cs => cs

/-- what follows an exponent, if there is one; tells whether there was -/
def skipExponent : List Char → Option (Bool × List Char)
  | 'e' :: cs => (skipDigits (skipSign cs)).map (true, ·)
  | 'E' :: cs => (skipDigits (skipSign cs)).map (true, ·)
  | cs => some (false, cs)

/-- the token of an integer with this sign and this magnitude -/
def integerToken (negative : Bool) (n : Nat) : Token :=
  if negative then (if n = 0 then .foreignNumber else .int (-(n : Int))) else .int n

/-- a number without its sign, and what follows it -/
def scanMagnitude (negative : Bool) (cs : List Char) : Option (Token × List Char) := do
  let (digits, rest) ← scanWhole cs
  let (hasFraction, rest) ← skipFraction rest
  let (hasExponent, rest) ← skipExponent rest
  let token :=
    if hasFraction || hasExponent then .foreignNumber else integerToken negative (Nat.ofDigitChars 10 digits 0)
  return (token, rest)

def scanNumber : List Char → Option (Token × List Char)
  | '-' :: cs => scanMagnitude true cs
  | cs => scanMagnitude false cs

/-! ## Whole texts -/

/-- the four characters that may stand between tokens -/
def isSpace (c : Char) : Bool :=
  c == ' ' || c == '\t' || c == '\n' || c == '\r'

/-- the first token of a text that starts with no blank, and what follows it -/
def scanToken : List Char → Option (Token × List Char)
  | '[' :: cs => some (.listOpen, cs)
  | ']' :: cs => some (.listClose, cs)
  | '\x7b' :: cs => some (.objectOpen, cs)
  | '\x7d' :: cs => some (.objectClose, cs)
  | ',' :: cs => some (.comma, cs)
  | ':' :: cs => some (.colon, cs)
  | '"' :: cs => (scanText cs).map fun (units, rest) => (textToken units, rest)
  | 'n' :: 'u' :: 'l' :: 'l' :: cs => some (.null, cs)
  | 't' :: 'r' :: 'u' :: 'e' :: cs => some (.bool true, cs)
  | 'f' :: 'a' :: 'l' :: 's' :: 'e' :: cs => some (.bool false, cs)
  | cs => scanNumber cs

/-- the tokens of a text; `fuel` bounds the number of tokens and blanks -/
def tokensWithin : Nat → List Char → Option (List Token)
  | _, [] => some []
  | 0, _ => none
  | fuel + 1, c :: cs =>
    if isSpace c then tokensWithin fuel cs
    else
      match scanToken (c :: cs) with
      | none => none
      | some (token, rest) => (tokensWithin fuel rest).map (token :: ·)

/-- the tokens of a text, without the blanks between them -/
def tokenize (cs : List Char) : Option (List Token) :=
  tokensWithin cs.length cs

/-! ## Writing texts -/

/-- a small hexadecimal digit -/
def hexDigit (n : Nat) : Char :=
  (Text.hexDigit n).toLower

/-- a character as it stands between quotes -/
def escapeChar (c : Char) : List Char :=
  if c = '"' then ['\\', '"']
  else if c = '\\' then ['\\', '\\']
  else if c = '\x08' then ['\\', 'b']
  else if c = '\t' then ['\\', 't']
  else if c = '\n' then ['\\', 'n']
  else if c = '\x0c' then ['\\', 'f']
  else if c = '\r' then ['\\', 'r']
  else if c < ' ' then ['\\', 'u', '0', '0', hexDigit (c.toNat / 16), hexDigit (c.toNat % 16)]
  else [c]

/-- a text between quotes -/
def quote (s : String) : List Char :=
  '"' :: s.toList.flatMap escapeChar ++ ['"']

end ByteMachine.Json
