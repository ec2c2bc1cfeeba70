/-
Taking JSON values apart.

A record is an object with its fields as members, in any order, or a list of its fields in the order of their names. Of
an object, members with other names are ignored or refused, as the record wants, and no field may occur twice. Of a
list, fields may be missing at the end, and there may be no items beyond the fields.

A choice is the name of an alternative, or an object with that name as its only key and null as its value.

Contents:
- `bool?`, `str?`, `natBelow?`, `byte?`, `intBetween?`, `list?`, `optionalText?`: values of one kind;
- `fields?`: the fields of a record;
- `choice?`: an alternative without a value;
- `tagged?`: the name and the value of an alternative with one.
-/
import ByteMachine.Json
import ByteMachine.Text.Numeral

namespace ByteMachine.Json

/-! ## Values of one kind -/

def bool? : Json → Option Bool
  | .bool b => some b
  | _ => none

def str? : Json → Option String
  | .str s => some s
  | _ => none

/-- an integer from `least` to `greatest` -/
def intBetween? (least greatest : Int) : Json → Option Int
  | .int n => if least ≤ n ∧ n ≤ greatest then some n else none
  | _ => none

/-- a number below `bound` -/
def natBelow? (bound : Nat) : Json → Option Nat
  | .int n => if 0 ≤ n ∧ n < bound then some n.toNat else none
  | _ => none

/-- a number of at most 64 bits -/
def word? (j : Json) : Option Nat :=
  j.natBelow? Text.bound64

def byte? (j : Json) : Option UInt8 :=
  (j.natBelow? 256).map UInt8.ofNat

/-- a list whose items are all read by `item?` -/
def list? {α : Type} (item? : Json → Option α) : Json → Option (List α)
  | .list items => items.mapM item?
  | _ => none

def optionalText? : Json → Option (Option String)
  | .null => some none
  | .str s => some (some s)
  | _ => none

/-! ## Records -/

/-- what is done with members that are no field -/
inductive ExtraMembers
  | ignored
  | refused
  deriving DecidableEq, Repr

/-- the value of a member, if there is one with this name -/
def lookup (name : String) (members : List (String × Json)) : Option Json :=
  (members.find? (·.1 == name)).map Prod.snd

/-- the fields of a record, in the order of their names; missing ones are `none` -/
def fields? (extra : ExtraMembers) (names : List String) : Json → Option (List (Option Json))
  | .object members =>
    let known := (members.map Prod.fst).filter names.contains
    if !decide known.Nodup then none
    else if extra = .refused ∧ known.length < members.length then none
    else some (names.map (lookup · members))
  | .list items =>
    if names.length < items.length then none
    else some (items.map some ++ List.replicate (names.length - items.length) none)
  | _ => none

/-! ## Choices -/

/-- an alternative without a value -/
def choice? {α : Type} (table : List (String × α)) : Json → Option α
  | .str name => (table.find? (·.1 == name)).map Prod.snd
  | .object [(name, .null)] => (table.find? (·.1 == name)).map Prod.snd
  | _ => none

/-- the name and the value of an alternative with one -/
def tagged? : Json → Option (String × Json)
  | .object [(name, j)] => some (name, j)
  | _ => none

end ByteMachine.Json
