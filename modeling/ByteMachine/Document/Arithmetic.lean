/-
The arithmetic types as JSON: bits, octets, flags, operations, outputs, adders and their reports.

Each type has `toJson` and `ofJson?`. Names of alternatives are those that the types print; bits are the exception, with
`Zero` and `One`.

Main statement: `Flags.ofJson?_toJson` (flags are read back, as a part of every state).
-/
import ByteMachine.Adder.Report
import ByteMachine.Json.Field

namespace ByteMachine

/-! ## Bits, octets and flags -/

namespace Bit

def names : List (String × Bit) :=
  [("Zero", .zero), ("One", .one)]

def toJson : Bit → Json
  | .zero => .str "Zero"
  | .one => .str "One"

def ofJson? : Json → Option Bit :=
  Json.choice? names

end Bit

namespace Octet

def toJson (o : Octet) : Json :=
  .str o.text

def ofJson? (j : Json) : Option Octet :=
  j.str?.bind fun s => (parse s).toOption

end Octet

namespace Flags

def toJson (f : Flags) : Json :=
  .object [("zero", .bool f.zero), ("negative", .bool f.negative), ("carry", .bool f.carry),
    ("overflow", .bool f.overflow)]

def ofJson? (j : Json) : Option Flags :=
  match j.fields? .ignored ["zero", "negative", "carry", "overflow"] with
  | some [some zero, some negative, some carry, some overflow] => do
    return { zero := ← zero.bool?, negative := ← negative.bool?, carry := ← carry.bool?, overflow := ← overflow.bool? }
  | _ => none

end Flags

/-! ## The arithmetic-logic unit -/

namespace AluOp

def toJson (op : AluOp) : Json :=
  .str op.name

def ofJson? : Json → Option AluOp :=
  Json.choice? (all.map fun op => (op.name, op))

end AluOp

namespace AluOutput

def toJson (o : AluOutput) : Json :=
  .object [("result", .byte o.result), ("flags", o.flags.toJson)]

def ofJson? (j : Json) : Option AluOutput :=
  match j.fields? .ignored ["result", "flags"] with
  | some [some result, some flags] => do return { result := ← result.byte?, flags := ← Flags.ofJson? flags }
  | _ => none

end AluOutput

namespace Alu

def toJson (a : Alu) : Json :=
  (AluOutput.mk a.result a.flags).toJson

def ofJson? (j : Json) : Option Alu :=
  (AluOutput.ofJson? j).map fun o => { result := o.result, flags := o.flags }

end Alu

/-! ## The serial adder -/

namespace AdderOp

def toJson (op : AdderOp) : Json :=
  .str op.name

def ofJson? : Json → Option AdderOp :=
  Json.choice? [("add", .add), ("sub", .sub)]

end AdderOp

namespace Mode

def toJson (mode : Mode) : Json :=
  .str mode.name

def ofJson? : Json → Option Mode :=
  Json.choice? [("unsigned", .unsigned), ("twos-complement", .twosComplement)]

end Mode

namespace SerialAdder

def toJson (adder : SerialAdder) : Json :=
  .object [("mode", adder.mode.toJson)]

def ofJson? (j : Json) : Option SerialAdder :=
  match j.fields? .ignored ["mode"] with
  | some [some mode] => (Mode.ofJson? mode).map SerialAdder.mk
  | _ => none

end SerialAdder

namespace BitStep

def toJson (s : BitStep) : Json :=
  .object [("position", .nat s.position), ("a", s.a.toJson), ("b", s.b.toJson), ("carry_in", s.carryIn.toJson),
    ("sum_bit", s.sumBit.toJson), ("carry_out", s.carryOut.toJson)]

def ofJson? (j : Json) : Option BitStep :=
  match j.fields? .ignored ["position", "a", "b", "carry_in", "sum_bit", "carry_out"] with
  | some [some position, some a, some b, some carryIn, some sumBit, some carryOut] => do
    return {
      position := ← position.word?
      a := ← Bit.ofJson? a
      b := ← Bit.ofJson? b
      carryIn := ← Bit.ofJson? carryIn
      sumBit := ← Bit.ofJson? sumBit
      carryOut := ← Bit.ofJson? carryOut }
  | _ => none

end BitStep

namespace Report

def toJson (r : Report) : Json :=
  .object [("resultDecimal", .int r.result), ("resultBits", r.bits.toJson), ("flags", r.flags.toJson),
    ("stepTrace", .list (r.lines.map .str))]

/-- a result has at most 32 bits, one of them for the sign -/
def ofJson? (j : Json) : Option Report :=
  match j.fields? .ignored ["resultDecimal", "resultBits", "flags", "stepTrace"] with
  | some [some result, some bits, some flags, some lines] => do
    return {
      result := ← result.intBetween? (-2147483648) 2147483647
      bits := ← Octet.ofJson? bits
      flags := ← Flags.ofJson? flags
      lines := ← lines.list? Json.str? }
  | _ => none

end Report

/-! ## Reading back -/

theorem Flags.ofJson?_toJson (f : Flags) : Flags.ofJson? f.toJson = some f := by
  cases f
  rfl

end ByteMachine
