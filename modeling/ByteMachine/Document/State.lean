/-
Programs, configurations and states as JSON.

A program is the list of its sources. A configuration may leave settings out, which then keep their defaults, and has no
other member; every other record ignores members that it does not know.

Each type has `toJson` and `ofJson?`; `Config.ofText` reads and validates a configuration.
-/
import ByteMachine.Document.Arithmetic
import ByteMachine.Json.Printer
import ByteMachine.Json.Reader
import ByteMachine.Machine.State
import ByteMachine.Program

namespace ByteMachine

/-! ## Programs -/

namespace MicroOp

/-- the micro-operations without a parameter, by the names that documents use -/
def plainNames : List (String × MicroOp) :=
  [("MarFromPc", .marFromPc), ("MdrFromMemory", .mdrFromMemory), ("IrFromMdr", .irFromMdr),
    ("IncrementPc", .advancePc), ("AluAdd", .aluAdd), ("AluSub", .aluSub), ("AluAnd", .aluAnd),
    ("LatchFlags", .latchFlags), ("MemoryFromMdr", .memoryFromMdr)]

def toJson : MicroOp → Json
  | .marFromPc => .str "MarFromPc"
  | .mdrFromMemory => .str "MdrFromMemory"
  | .irFromMdr => .str "IrFromMdr"
  | .advancePc => .str "IncrementPc"
  | .busAFromRegister n => .object [("BusAFromRegister", .nat n)]
  | .busBFromRegister n => .object [("BusBFromRegister", .nat n)]
  | .aluAdd => .str "AluAdd"
  | .aluSub => .str "AluSub"
  | .aluAnd => .str "AluAnd"
  | .registerFromAlu n => .object [("RegisterFromAlu", .nat n)]
  | .latchFlags => .str "LatchFlags"
  | .memoryFromMdr => .str "MemoryFromMdr"
  | .unknown text => .object [("Unknown", .str text)]

/-- the micro-operation with this name and this parameter -/
def ofTag? (name : String) (parameter : Json) : Option MicroOp :=
  match name with
  | "BusAFromRegister" => parameter.word?.map .busAFromRegister
  | "BusBFromRegister" => parameter.word?.map .busBFromRegister
  | "RegisterFromAlu" => parameter.word?.map .registerFromAlu
  | "Unknown" => parameter.str?.map .unknown
  | _ => none

def ofJson? (j : Json) : Option MicroOp :=
  match Json.choice? plainNames j with
  | some op => some op
  | none => j.tagged?.bind fun (name, parameter) => ofTag? name parameter

end MicroOp

namespace Program

def toJson (p : Program) : Json :=
  .list (p.sources.map .str)

def ofJson? (j : Json) : Option Program :=
  (j.list? Json.str?).map ofTexts

end Program

/-! ## Configurations -/

namespace Config

def toJson (c : Config) : Json :=
  .object [("memorySize", .nat c.memorySize), ("registerCount", .nat c.registerCount),
    ("clockIntervalMs", .nat c.clockIntervalMs)]

/-- a setting, or its default when it is left out -/
def settingOr (default : Nat) : Option Json → Option Nat
  | none => some default
  | some j => j.word?

/-- a configuration as it stands, valid or not -/
def ofJson? (j : Json) : Option Config :=
  match j.fields? .refused ["memorySize", "registerCount", "clockIntervalMs"] with
  | some [memorySize, registerCount, clockIntervalMs] => do
    return {
      memorySize := ← settingOr 256 memorySize
      registerCount := ← settingOr 8 registerCount
      clockIntervalMs := ← settingOr 1000 clockIntervalMs }
  | _ => none

/-- the valid configuration that the text describes -/
def ofText (s : String) : Except ConfigError Config :=
  match (Json.read s).bind ofJson? with
  | some c => c.validate
  | none => .error .malformed

end Config

/-! ## States -/

namespace Memory

def toJson (m : Memory) : Json :=
  .list (m.cells.map .byte)

def ofJson? (j : Json) : Option Memory :=
  (j.list? Json.byte?).map Memory.mk

end Memory

namespace Registers

def toJson (r : Registers) : Json :=
  .object [("general", .list (r.general.map .byte)), ("pc", .byte r.pc), ("ir", .byte r.ir), ("mar", .byte r.mar),
    ("mdr", .byte r.mdr)]

def ofJson? (j : Json) : Option Registers :=
  match j.fields? .ignored ["general", "pc", "ir", "mar", "mdr"] with
  | some [some general, some pc, some ir, some mar, some mdr] => do
    return {
      general := ← general.list? Json.byte?
      pc := ← pc.byte?
      ir := ← ir.byte?
      mar := ← mar.byte?
      mdr := ← mdr.byte? }
  | _ => none

end Registers

namespace RunStatus

def toJson (s : RunStatus) : Json :=
  .str s.name

def ofJson? : Json → Option RunStatus :=
  Json.choice? [("idle", .idle), ("running", .running), ("paused", .paused), ("completed", .completed)]

theorem ofJson?_toJson (s : RunStatus) : ofJson? s.toJson = some s := by
  cases s <;> rfl

end RunStatus

namespace TraceEntry

def toJson (e : TraceEntry) : Json :=
  .object [("step", .nat e.step), ("operation", .str e.operation), ("result", .str e.result)]

def ofJson? (j : Json) : Option TraceEntry :=
  match j.fields? .ignored ["step", "operation", "result"] with
  | some [some step, some operation, some result] => do
    return { step := ← step.word?, operation := ← operation.str?, result := ← result.str? }
  | _ => none

end TraceEntry

namespace State

def fieldNames : List String :=
  ["registers", "memory", "busA", "busB", "aluResult", "aluFlags", "flags", "currentStep", "executionTrace", "status"]

def toJson (s : State) : Json :=
  .object [("registers", s.registers.toJson), ("memory", s.memory.toJson), ("busA", .byte s.busA),
    ("busB", .byte s.busB), ("aluResult", .byte s.aluResult), ("aluFlags", s.aluFlags.toJson),
    ("flags", s.flags.toJson), ("currentStep", .nat s.currentStep),
    ("executionTrace", .list (s.trace.map TraceEntry.toJson)), ("status", s.status.toJson)]

def ofJson? (j : Json) : Option State :=
  match j.fields? .ignored fieldNames with
  | some [some registers, some memory, some busA, some busB, some aluResult, some aluFlags, some flags,
      some currentStep, some trace, some status] => do
    return {
      registers := ← Registers.ofJson? registers
      memory := ← Memory.ofJson? memory
      busA := ← busA.byte?
      busB := ← busB.byte?
      aluResult := ← aluResult.byte?
      aluFlags := ← Flags.ofJson? aluFlags
      flags := ← Flags.ofJson? flags
      currentStep := ← currentStep.word?
      trace := ← trace.list? TraceEntry.ofJson?
      status := ← RunStatus.ofJson? status }
  | _ => none

end State

end ByteMachine
