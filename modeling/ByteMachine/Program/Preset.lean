/-
Presets: the three example programs that come with the machine.

Contents:
- `Preset`: a named program with a description;
- `Preset.all`: the presets, in the order in which they are listed;
- `Preset.find?`: a preset by its name.
-/
import ByteMachine.Program

namespace ByteMachine

structure Preset where
  name : String
  description : String
  texts : List String
  deriving DecidableEq, Repr

namespace Preset

def program (p : Preset) : Program :=
  .ofTexts p.texts

def fetchDecodeExecute : Preset where
  name := "fetch-decode-execute"
  description := "Fetch the instruction at PC into IR and advance PC"
  texts := ["MAR ← PC", "MDR ← Mem[MAR]", "IR ← MDR", "PC ← PC + 1"]

def loadStore : Preset where
  name := "load-store"
  description := "Copy the byte at PC to the following cell"
  texts := ["MAR ← PC", "MDR ← Mem[MAR]", "PC ← PC + 1", "MAR ← PC", "Mem[MAR] ← MDR"]

def aluOperations : Preset where
  name := "alu-operations"
  description := "Add, subtract and AND R[0] with R[1] into R[2]-R[4]"
  texts :=
    ["A ← R[0]", "B ← R[1]", "ALU ← A + B", "R[2] ← ALU", "FLAGS ← ALU.flags", "ALU ← A - B", "R[3] ← ALU",
      "FLAGS ← ALU.flags", "ALU ← A & B", "R[4] ← ALU", "FLAGS ← ALU.flags"]

/-- the presets, in the order in which they are listed -/
def all : List Preset :=
  [fetchDecodeExecute, loadStore, aluOperations]

/-- the preset with this name; blanks around it and the case of ASCII letters do not matter -/
def find? (name : String) : Option Preset :=
  let key := (Text.trim name.toList).map Char.toLower
  all.find? fun p => p.name.toList == key

end Preset

end ByteMachine
