/-
Writing JSON, in two forms. The compact form has no blank between tokens. The spread form has each item and each member
on a line of its own, two blanks deeper than what holds it, a blank after every colon, and nothing inside an empty list
or object.

Contents:
- `Json.compact`: the compact form;
- `Json.spread`: the spread form.

A foreign value has no text of its own and is written as null; the encoders of this library make none.
-/
import ByteMachine.Json
import ByteMachine.Json.Token

namespace ByteMachine.Json

/-- an integer in decimal -/
def intChars (n : Int) : List Char :=
  if n < 0 then '-' :: Text.decimal n.natAbs else Text.decimal n.natAbs

/-- the text of a value without parts -/
def leafChars : Json → List Char
  | .bool true => ['t', 'r', 'u', 'e']
  | .bool false => ['f', 'a', 'l', 's', 'e']
  | .int n => intChars n
  | .str s => quote s
  | _ => ['n', 'u', 'l', 'l']

mutual

def compactChars : Json → List Char
  | .list [] => ['[', ']']
  | .list (j :: js) => '[' :: (compactChars j ++ compactItems js)
  | .object [] => ['\x7b', '\x7d']
  | .object ((key, j) :: ms) => '\x7b' :: (quote key ++ ':' :: (compactChars j ++ compactMembers ms))
  | leaf => leafChars leaf

/-- the items after the first one, and the closing bracket -/
def compactItems : List Json → List Char
  | [] => [']']
  | j :: js => ',' :: (compactChars j ++ compactItems js)

/-- the members after the first one, and the closing brace -/
def compactMembers : List (String × Json) → List Char
  | [] => ['\x7d']
  | (key, j) :: ms => ',' :: (quote key ++ ':' :: (compactChars j ++ compactMembers ms))

end

/-- a new line at this depth -/
def newLine (depth : Nat) : List Char :=
  '\n' :: List.replicate (2 * depth) ' '

mutual

def spreadChars (depth : Nat) : Json → List Char
  | .list [] => ['[', ']']
  | .list (j :: js) => '[' :: (newLine (depth + 1) ++ (spreadChars (depth + 1) j ++ spreadItems depth js))
  | .object [] => ['\x7b', '\x7d']
  | .object ((key, j) :: ms) =>
    '\x7b' :: (newLine (depth + 1) ++ (quote key ++ ':' :: ' ' ::
      (spreadChars (depth + 1) j ++ spreadMembers depth ms)))
  | leaf => leafChars leaf

/-- the items after the first one, and the closing bracket, of a list at this depth -/
def spreadItems (depth : Nat) : List Json → List Char
  | [] => newLine depth ++ [']']
  | j :: js => ',' :: (newLine (depth + 1) ++ (spreadChars (depth + 1) j ++ spreadItems depth js))

/-- the members after the first one, and the closing brace, of an object at this depth -/
def spreadMembers (depth : Nat) : List (String × Json) → List Char
  | [] => newLine depth ++ ['\x7d']
  | (key, j) :: ms =>
    ',' :: (newLine (depth + 1) ++ (quote key ++ ':' :: ' ' ::
      (spreadChars (depth + 1) j ++ spreadMembers depth ms)))

end

/-- the form without blanks -/
def compact (j : Json) : String :=
  String.ofList (compactChars j)

/-- the form with one line per item and member -/
def spread (j : Json) : String :=
  String.ofList (spreadChars 0 j)

end ByteMachine.Json
