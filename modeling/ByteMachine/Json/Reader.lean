/-
Reading JSON: tokens to a value. A text is read if it is one value and nothing else but blanks.

Contents:
- `value`, `items`, `members`: a value from the front of a list of tokens;
- `Json.read`: the value of a text.
-/
import ByteMachine.Json
import ByteMachine.Json.Token

namespace ByteMachine.Json

/-- an object with these members; a key that is no text makes the object foreign -/
def objectOf (members : List (Option String × Json)) : Json :=
  match members.mapM fun (key, j) => key.map (·, j) with
  | some members => .object members
  | none => .foreign

mutual

/-- the value at the front of the tokens, and the tokens after it; `fuel` bounds the nesting -/
def value : Nat → List Token → Option (Json × List Token)
  | 0, _ => none
  | _ + 1, .null :: ts => some (.null, ts)
  | _ + 1, .bool b :: ts => some (.bool b, ts)
  | _ + 1, .int n :: ts => some (.int n, ts)
  | _ + 1, .str s :: ts => some (.str s, ts)
  | _ + 1, .foreignNumber :: ts => some (.foreign, ts)
  | _ + 1, .foreignText :: ts => some (.foreign, ts)
  | _ + 1, .listOpen :: .listClose :: ts => some (.list [], ts)
  | fuel + 1, .listOpen :: ts => do
    let (j, ts) ← value fuel ts
    let (js, ts) ← items fuel ts
    return (.list (j :: js), ts)
  | _ + 1, .objectOpen :: .objectClose :: ts => some (.object [], ts)
  | fuel + 1, .objectOpen :: ts => do
    let (m, ts) ← member fuel ts
    let (ms, ts) ← members fuel ts
    return (objectOf (m :: ms), ts)
  | _ + 1, _ => none

/-- the items after the first one, each behind a comma, up to the closing bracket -/
def items : Nat → List Token → Option (List Json × List Token)
  | 0, _ => none
  | _ + 1, .listClose :: ts => some ([], ts)
  | fuel + 1, .comma :: ts => do
    let (j, ts) ← value fuel ts
    let (js, ts) ← items fuel ts
    return (j :: js, ts)
  | _ + 1, _ => none

/-- a key, a colon and a value -/
def member : Nat → List Token → Option ((Option String × Json) × List Token)
  | 0, _ => none
  | fuel + 1, .str key :: .colon :: ts => do
    let (j, ts) ← value fuel ts
    return ((some key, j), ts)
  | fuel + 1, .foreignText :: .colon :: ts => do
    let (j, ts) ← value fuel ts
    return ((none, j), ts)
  | _ + 1, _ => none

/-- the members after the first one, each behind a comma, up to the closing brace -/
def members : Nat → List Token → Option (List (Option String × Json) × List Token)
  | 0, _ => none
  | _ + 1, .objectClose :: ts => some ([], ts)
  | fuel + 1, .comma :: ts => do
    let (m, ts) ← member fuel ts
    let (ms, ts) ← members fuel ts
    return (m :: ms, ts)
  | _ + 1, _ => none

end

/-- the value that the tokens are, when nothing is left over -/
def ofTokens? (ts : List Token) : Option Json :=
  match value (ts.length + 1) ts with
  | some (j, []) => some j
  | _ => none

/-- the value of a text -/
def read (s : String) : Option Json :=
  (tokenize s.toList).bind ofTokens?

end ByteMachine.Json
