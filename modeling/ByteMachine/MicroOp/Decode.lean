/-
Decoding statements. A statement is compared by its key: its text without blank characters, in upper case, and with
every `<-` spelled as the arrow. Nine transfers have one key each; the three that name a register have the keys
`A←r`, `B←r` and `r←ALU`, where `r` is `R` with a numeral after it, bare or in brackets. A numeral is a row of ASCII
digits with a value of at most 64 bits.

Contents:
- `MicroOp.key`: the key of a text;
- `MicroOp.ofKey?`: the transfer with this key;
- `MicroOp.decode`: the micro-operation of a text. It never fails: what is no transfer is kept as it is.

Main statement: `ofKey?_isUnknown` (a key stands for a transfer or for nothing).
-/
import ByteMachine.MicroOp
import ByteMachine.Text.Blank
import ByteMachine.Text.Upper

namespace ByteMachine.MicroOp

/-! ## Keys -/

/-- every `<-` spelled as the arrow -/
def joinArrows : List Char → List Char
  | [] => []
  | '<' :: '-' :: cs => '←' :: joinArrows cs
  | c :: cs => c :: joinArrows cs

/-- the text without blank characters, in upper case, with one spelling of the arrow -/
def key (cs : List Char) : List Char :=
  joinArrows (Text.upper (Text.squeeze cs))

/-- the keys of the transfers that name no register -/
def fixedKeys : List (String × MicroOp) :=
  [("MAR←PC", .marFromPc), ("MDR←MEM[MAR]", .mdrFromMemory), ("IR←MDR", .irFromMdr), ("PC←PC+1", .advancePc),
    ("ALU←A+B", .aluAdd), ("ALU←A-B", .aluSub), ("ALU←A&B", .aluAnd), ("FLAGS←ALU.FLAGS", .latchFlags),
    ("MEM[MAR]←MDR", .memoryFromMdr)]

/-- the text between the brackets, if it is in brackets -/
def unbracket : List Char → List Char
  | '[' :: cs => if cs.getLast? = some ']' then cs.dropLast else '[' :: cs
  | cs => cs

/-- the number of a register that is written `R[n]` or `Rn` -/
def register? : List Char → Option Nat
  | 'R' :: cs =>
    let digits := unbracket cs
    if digits ≠ [] ∧ digits.all Text.isDigit then
      (Text.readDigits 10 Text.bound64 .tooLarge 0 digits).toOption
    else none
  | _ => none

/-- the transfer whose key has this destination and this source, where one of them is a register -/
def registerTransfer? (destination source : List Char) : Option MicroOp :=
  if destination = ['A'] then (register? source).map .busAFromRegister
  else if destination = ['B'] then (register? source).map .busBFromRegister
  else if source = ['A', 'L', 'U'] then (register? destination).map .registerFromAlu
  else none

/-- the transfer with this key -/
def ofKey? (k : List Char) : Option MicroOp :=
  match fixedKeys.find? fun entry => entry.1.toList == k with
  | some (_, op) => some op
  | none =>
    match k.dropWhile (· != '←') with
    | [] => none
    | _ :: source => registerTransfer? (k.takeWhile (· != '←')) source

/-! ## Decoding -/

def decode (s : String) : MicroOp :=
  (ofKey? (key s.toList)).getD (.unknown (Text.trimmed s))

theorem registerTransfer?_isUnknown {destination source : List Char} {op : MicroOp}
    (h : registerTransfer? destination source = some op) : op.isUnknown = false := by
  unfold registerTransfer? at h
  split at h
  · obtain ⟨n, _, rfl⟩ := Option.map_eq_some_iff.1 h; rfl
  · split at h
    · obtain ⟨n, _, rfl⟩ := Option.map_eq_some_iff.1 h; rfl
    · split at h
      · obtain ⟨n, _, rfl⟩ := Option.map_eq_some_iff.1 h; rfl
      · cases h

/-- a key is the key of a transfer only -/
theorem ofKey?_isUnknown {k : List Char} {op : MicroOp} (h : ofKey? k = some op) : op.isUnknown = false := by
  unfold ofKey? at h
  split at h
  · next entry hf =>
    cases h
    have hm := List.mem_of_find?_eq_some hf
    simp only [fixedKeys, List.mem_cons, List.not_mem_nil, or_false, Prod.mk.injEq] at hm
    rcases hm with h | h | h | h | h | h | h | h | h <;> rw [h.2] <;> rfl
  · split at h
    · cases h
    · exact registerTransfer?_isUnknown h

end ByteMachine.MicroOp
