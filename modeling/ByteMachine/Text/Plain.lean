/-
Plain text: what is left of a text on a device that knows no control sequences.

Rules:
- visible characters stay, and so does white space; every other control character goes, and so does the delete character;
- an escape character opens a sequence, in any place. The next character closes it again, except that
  * characters from the space to the slash are still followed by another one;
  * `[` opens parameters, which end with a character from `@` to `~`;
  * `]` opens a command, which ends with a bell;
  * `P` opens a device string, which has parameters first; they end with a final character, or with one out of place.
    `X`, `^` and `_` open strings at once. All of them end with a byte 9C, wherever it stands in the encoding of a
    character;
- white space shows inside a sequence too, except in commands and strings, and so do the visible characters right after
  it. Then the sequence goes on, unless one of them was beyond ASCII: such a character closes it;
- the characters cancel and substitute close everything.

Contents:
- `PlainMode`: where in a sequence we are;
- `PlainMode.next`: what a character changes, and whether it stays;
- `plain`: the text without its sequences.
-/

namespace ByteMachine.Text

/-- where in a control sequence we are -/
inductive PlainMode
  /-- outside of all sequences -/
  | outside
  /-- after an escape character -/
  | escape
  /-- before the final character of a short sequence -/
  | intermediate
  | parameters
  | command
  /-- at the start of a device string -/
  | device
  /-- in the parameters of a device string -/
  | deviceParameters
  /-- after the parameters of a device string -/
  | deviceIntermediate
  | text
  deriving DecidableEq, Repr

namespace PlainMode

/-- white space among the control characters -/
def isSpacing (c : Char) : Bool :=
  c = '\t' || c = '\n' || c = '\x0c' || c = '\r'

/-- does the encoding of a character hold the byte that ends a string? -/
def holdsTerminator (c : Char) : Bool :=
  (String.utf8EncodeChar c).contains 0x9c

/-- what a character after an escape character opens or closes -/
def afterEscape (c : Char) : PlainMode :=
  if c < '0' then .intermediate
  else
    match c with
    | '[' => .parameters
    | ']' => .command
    | 'P' => .device
    | 'X' | '^' | '_' => .text
    | _ => if c ≤ '~' then .outside else .escape

/-- the mode after a visible character; those beyond ASCII only matter to strings -/
def step (m : PlainMode) (c : Char) : PlainMode :=
  match m with
  | .outside => .outside
  | .escape => afterEscape c
  | .intermediate => if '0' ≤ c && c ≤ '~' then .outside else .intermediate
  | .parameters => if '@' ≤ c && c ≤ '~' then .outside else .parameters
  | .command => .command
  | .device =>
    if c < '0' then .deviceIntermediate
    else if c < '@' then .deviceParameters
    else if c ≤ '~' then .text
    else .device
  | .deviceParameters =>
    if c < '0' then .deviceIntermediate
    else if '<' ≤ c && c ≤ '~' then .text
    else .deviceParameters
  | .deviceIntermediate => if '0' ≤ c && c ≤ '~' then .text else .deviceIntermediate
  | .text => if holdsTerminator c then .outside else .text

/-- does white space show here? -/
def showsSpacing : PlainMode → Bool
  | .outside | .escape | .intermediate | .parameters => true
  | .command | .device | .deviceParameters | .deviceIntermediate | .text => false

/-- the mode after a character, told whether the one before it stays; does this one stay? -/
def next (m : PlainMode) (afterShown : Bool) (c : Char) : PlainMode × Bool :=
  if c = '\x1b' then (.escape, false)
  else if c = '\x18' || c = '\x1a' then (.outside, false)
  else if c < ' ' then
    if isSpacing c && m.showsSpacing then (m, true)
    else (if m = .command && c = '\x07' then .outside else m, false)
  else if c = '\x7f' then (m, false)
  else if afterShown then (if c ≤ '~' then m else .outside, true)
  else (m.step c, m == .outside)

end PlainMode

/-- the characters that stay, read in this mode; does the character before them stay? -/
def plainIn : PlainMode → Bool → List Char → List Char
  | _, _, [] => []
  | m, afterShown, c :: cs =>
    let (m, stays) := m.next afterShown c
    if stays then c :: plainIn m stays cs else plainIn m stays cs

/-- the text without its control sequences -/
def plain (s : String) : String :=
  String.ofList (plainIn .outside false s.toList)

end ByteMachine.Text
