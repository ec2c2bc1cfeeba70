/-
Input: how a terminal sends keys.

Rules:
- a character stands for itself; a control character stands for its letter, and either does so after an escape character
  too;
- carriage return, tab and delete are keys of their own, which do nothing here;
- an escape character and `[` open a sequence. `A` and `B` right after them are the arrows; digits open parameters, which
  end with a character from `@` to `~`. With parameters the arrows can say that a key comes up, which is no press;
- the final letter `u` means the key of a code: the first parameter is the code, the second tells which other keys are
  held down and whether the key comes up. With the shift key the code after a colon counts, if there is one;
- `[`, `M`, `<` and `?` after an open sequence belong to other messages, which are passed over;
- what is pasted is passed over as well; sequences with the parameter 200 and 201 stand around it.

Contents:
- `InputMode`: where in the input we are;
- `InputMode.step`: what one more character changes, and the key that it completes;
- `Key.ofInput`: the keys of what a terminal sends.
-/
import ByteMachine.Stepper.Key
import ByteMachine.Text.Numeral
import ByteMachine.Text.Pieces

namespace ByteMachine

namespace Key

/-- the key of a character on its own -/
def ofChar (c : Char) : Key :=
  if c = '\r' || c = '\t' || c = '\x7f' then .other
  else if c = '\x00' then .char ' '
  else if c.toNat ≤ 26 then .char (Char.ofNat ('a'.toNat + (c.toNat - 1)))
  else if c < ' ' then .other
  else .char c

/-- the arrow that a final letter stands for -/
def arrow? (final : Char) : Option Key :=
  if final = 'A' then some .up else if final = 'B' then some .down else none

/-! ## Parameters -/

/-- a number among the parameters, below a bound -/
def number? (bound : Nat) (cs : List Char) : Option Nat :=
  (Text.readUnsigned 10 bound cs).toOption

/-- what is said of the keys that are held down while another one moves -/
structure Held where
  shift : Bool
  /-- the other key goes down -/
  isPress : Bool
  deriving DecidableEq, Repr

/-- what the second parameter says: one more than a mask in which the shift key is the lowest bit, then the movement -/
def held? (params : List (List Char)) : Option Held := do
  let parts := Text.pieces ':' (← params[1]?)
  let mask ← number? 256 (← parts[0]?)
  let movement := (parts[1]?.bind (number? 256)).getD 1
  return { shift := (mask - 1) % 2 = 1, isPress := movement ≠ 2 && movement ≠ 3 }

/-- the character of a code -/
def charOf? (cs : List Char) : Option Char := do
  let code ← number? 0x110000 cs
  if code.isValidChar then some (Char.ofNat code) else none

/-- the key of a code; codes from a private area mean keys without a character -/
def ofCode (c : Char) : Key :=
  if c = '\ue04b' then .up
  else if c = '\ue04c' then .down
  else if '\ue000' ≤ c && c ≤ '\uf8ff' then .other
  else if c = '\x1b' || c = '\r' || c = '\t' || c = '\x7f' then .other
  else .char c

/-- is this the code of a shift key itself? -/
def isShift (c : Char) : Bool :=
  c = '\ue061' || c = '\ue067'

/-- the key that a code with its parameters presses -/
def coded? (params : List (List Char)) : Option Key := do
  let codes := Text.pieces ':' (← params[0]?)
  let code ← charOf? (← codes[0]?)
  let held := (held? params).getD ⟨false, true⟩
  if held.isPress then
    if held.shift || isShift code then return ((codes[1]?.bind charOf?).map .char).getD (ofCode code)
    else return ofCode code
  else none

/-- do parameters before an arrow let it be a press? Without a second parameter they have to end in a digit. -/
def letsPress (cs : List Char) : Bool :=
  match held? (Text.pieces ';' cs) with
  | some held => held.isPress
  | none => cs.getLast?.any Text.isDigit

end Key

/-! ## Modes -/

/-- where in the input we are -/
inductive InputMode
  | ground
  /-- after an escape character -/
  | escape
  /-- before a final letter that stands alone -/
  | letter
  /-- at the start of a sequence -/
  | sequence
  /-- in parameters, the latest character first -/
  | params (read : List Char)
  /-- before the end of a message from a pointing device -/
  | pointer
  /-- before the end of a report about the terminal; is it empty so far? -/
  | report (isEmpty : Bool)
  /-- before this many bytes that do not count -/
  | skipped (bytes : Nat)
  /-- in pasted text, the latest characters first -/
  | pasted (recent : List Char)
  deriving DecidableEq, Repr

namespace InputMode

/-- the sequence after pasted text -/
def pasteEnd : List Char :=
  ['\x1b', '[', '2', '0', '1', '~']

/-- what parameters and a final character complete -/
def close (params : List Char) (final : Char) : InputMode × Option Key :=
  if final = '~' && params = ['2', '0', '0'] then (.pasted [], none)
  else if final = 'u' then (.ground, Key.coded? (Text.pieces ';' params))
  else (.ground, if Key.letsPress params then Key.arrow? final else none)

/-- the mode after one more character, and the key that it completes -/
def step : InputMode → Char → InputMode × Option Key
  | .ground, c => if c = '\x1b' then (.escape, none) else (.ground, some (.ofChar c))
  | .escape, c =>
    if c = '[' then (.sequence, none)
    else if c = 'O' then (.letter, none)
    else (.ground, some (.ofChar c))
  | .letter, c => (.ground, Key.arrow? c)
  | .sequence, '[' => (.skipped 1, none)
  | .sequence, 'M' => (.skipped 3, none)
  | .sequence, '<' => (.pointer, none)
  | .sequence, '?' => (.report true, none)
  | .sequence, c => if Text.isDigit c then (.params [c], none) else (.ground, Key.arrow? c)
  | .params read, c => if '@' ≤ c && c ≤ '~' then close read.reverse c else (.params (c :: read), none)
  | .pointer, c => (if c = 'm' || c = 'M' then .ground else .pointer, none)
  | .report isEmpty, c => (if c = 'c' || (c = 'u' && !isEmpty) then .ground else .report false, none)
  | .skipped bytes, c => (if bytes ≤ c.utf8Size then .ground else .skipped (bytes - c.utf8Size), none)
  | .pasted recent, c =>
    let recent := (c :: recent).take pasteEnd.length
    (if recent.reverse = pasteEnd then .ground else .pasted recent, none)

/-- the mode after all the characters -/
def after (m : InputMode) (cs : List Char) : InputMode :=
  cs.foldl (fun m c => (m.step c).1) m

/-- the keys that the characters complete -/
def keys (m : InputMode) : List Char → List Key
  | [] => []
  | c :: cs => (m.step c).2.toList ++ keys (m.step c).1 cs

end InputMode

/-- the keys of what a terminal sends -/
def Key.ofInput (s : String) : List Key :=
  InputMode.ground.keys s.toList

end ByteMachine
