/-
What the commands print.

Contents:
- `Outcome`: exit code, lines and files after a command;
- `Execution`: a bounded run of a machine and its report. The last lines say that the bound was reached whenever the
  program is not completed;
- `Machine.inspectionLines`: the report on a restored snapshot;
- `aluLines`, `Report.printed`: the reports of the two calculators;
- `presetLines`, `aboutLines`, `usageLines`: what is known without a machine.

Main statement: `mem_lines_of_incomplete` (a program that is not completed is reported).
-/
import ByteMachine.Command.Setup
import ByteMachine.Document.Arithmetic
import ByteMachine.Stepper

namespace ByteMachine

/-! ## Outcomes -/

/-- what is left of a command when it ends; every line is printed with a line end -/
structure Outcome where
  exit : Nat := 0
  out : List String := []
  err : List String := []
  files : Directory
  deriving DecidableEq

namespace Outcome

/-- nothing said yet -/
def silent (d : Directory) : Outcome :=
  { files := d }

def say (o : Outcome) (lines : List String) : Outcome :=
  { o with out := o.out ++ lines }

def fail (o : Outcome) (f : Failure) : Outcome :=
  { o with exit := 1, err := o.err ++ [f.line] }

/-- a setup that failed -/
def ofHalt (d : Directory) (h : Halt) : Outcome :=
  { (silent d).fail h.failure with out := h.notices, err := h.warnings ++ [h.failure.line] }

/-- a setup that succeeded -/
def ofPrepared (d : Directory) (p : Prepared) : Outcome :=
  { files := d, out := [p.notice], err := p.warnings }

/-- saves a snapshot of the machine, if a path is given -/
def saving (o : Outcome) (m : Machine) : Option String → Outcome
  | none => o
  | some path =>
    match o.files.write path m.snapshot.fileText with
    | .ok files => { o with files, out := o.out ++ ["✓ Saved snapshot to " ++ path] }
    | .error e => o.fail (.save e)

/-- what is printed -/
def text (lines : List String) : String :=
  String.join (lines.map (· ++ "\n"))

end Outcome

/-! ## Runs -/

/-- a run of at most `limit` statements -/
structure Execution where
  before : Machine
  limit : Nat
  deriving DecidableEq

/-- the step, the statement and what it did -/
def TraceEntry.line (e : TraceEntry) : String :=
  Text.padded 2 e.step ++ ": " ++ String.ofList (Text.padRight 20 e.operation.toList) ++ " " ++ e.result

/-- registers, buses and flags -/
def State.lines (s : State) : List String :=
  let r := s.registers
  let general := r.general.zipIdx.map fun (b, n) => "R" ++ Text.numeral n ++ "=" ++ State.show8 b
  ["PC=" ++ State.show8 r.pc ++ "  IR=" ++ State.show8 r.ir ++ "  MAR=" ++ State.show8 r.mar ++
      "  MDR=" ++ State.show8 r.mdr,
    "  ".intercalate general,
    "A=" ++ State.show8 s.busA ++ "  B=" ++ State.show8 s.busB ++ "  ALU=" ++ State.show8 s.aluResult,
    "FLAGS:     " ++ s.flags.text,
    "ALU.flags: " ++ s.aluFlags.text]

namespace Execution

/-- how many statements were executed -/
def executed (e : Execution) : Nat :=
  (e.before.runToCompletion e.limit).1

def after (e : Execution) : Machine :=
  (e.before.runToCompletion e.limit).2

/-- the entries that the run added to the trace -/
def entries (e : Execution) : List TraceEntry :=
  e.after.state.trace.drop e.before.state.trace.length

/-- the line that says that the bound was reached -/
def limitLine (limit : Nat) : String :=
  "⚠️  Reached max steps limit (" ++ Text.numeral limit ++ "). Use --max-steps to increase."

/-- what is said when the program is not completed -/
def limitLines (e : Execution) : List String :=
  if e.after.isCompleted then [] else ["", limitLine e.limit]

def lines (e : Execution) (trace : Bool) : List String :=
  ["", "━━━ Execution ━━━"] ++ (if trace then e.entries.map TraceEntry.line else []) ++
    ["", "━━━ Result ━━━", "Steps:  " ++ Text.numeral e.executed, "State:  " ++ e.after.state.status.title] ++
    e.after.state.lines ++ e.limitLines

/-- a program that is not completed is reported -/
theorem mem_lines_of_incomplete (e : Execution) (trace : Bool) (h : e.after.isCompleted = false) :
    limitLine e.limit ∈ e.lines trace := by
  simp [lines, limitLines, h]

end Execution

/-! ## Snapshots -/

/-- the configuration with just the sizes that the snapshot has -/
def Snapshot.ownConfig (s : Snapshot) : Config :=
  { memorySize := s.state.memory.size, registerCount := s.state.registers.count }

/-- a memory cell that holds something -/
def cellLine (cell : Nat × UInt8) : String :=
  "Mem[" ++ Text.numeral cell.1 ++ "] = " ++ State.show8 cell.2

/-- the report on a machine that was restored from the snapshot at this path -/
def Machine.inspectionLines (m : Machine) (path : String) : List String :=
  ["📖 " ++ path] ++ (m.preset.map ("Preset: " ++ ·)).toList ++
    ["Status: " ++ m.state.status.title ++ ", next step " ++ Text.numeral m.state.currentStep, ""] ++
    m.listing.map ListingLine.render ++
    ["", m.state.registers.inspect, "FLAGS: " ++ m.state.flags.text,
      "Trace: " ++ Text.numeral m.state.trace.length ++ " entries"] ++
    m.state.memory.nonZero.map cellLine

/-! ## Calculators -/

/-- a byte in decimal and in bits -/
def byteAndBits (b : UInt8) : String :=
  State.show8 b ++ " (" ++ (Octet.ofByte b).text ++ ")"

/-- an operation of the arithmetic-logic unit with its operands, its result and its flags -/
def aluLines (op : AluOp) (a b : UInt8) : List String :=
  let out := op.evaluate a b
  [op.name ++ " " ++ byteAndBits a ++ (if op.arity = 1 then "" else ", " ++ byteAndBits b),
    "= " ++ State.show8 out.result ++ " (" ++ (Octet.ofByte out.result).text ++ ", 0x" ++ Text.hexByte out.result ++ ")",
    out.flags.text ++ "  (status byte 0x" ++ Text.hexByte out.flags.statusByte ++ ")"]

/-- the derivation, the result and the flags -/
def Report.printed (r : Report) : List String :=
  r.lines ++ ["", "Result: " ++ Text.integer r.result ++ " (" ++ r.bits.text ++ ")", "Flags:  " ++ r.flags.text]

/-- what is said when an operand leaves the range of the mode -/
def Mode.clampLine (mode : Mode) : String :=
  "⚠️  Operands clamped to " ++ Text.integer mode.least ++ "..=" ++ Text.integer mode.greatest ++ " for " ++
    mode.name ++ " mode"

/-! ## Without a machine -/

/-- a preset with its listing, in which no statement is marked -/
def Preset.lines (p : Preset) : List String :=
  [p.name ++ " - " ++ p.description] ++ (p.program.listing p.program.length).map ListingLine.render ++ [""]

def presetLines : List String :=
  Preset.all.flatMap Preset.lines

def versionLine : String :=
  "bytelab 0.1.0"

def aboutLines : List String :=
  ["ByteLab v0.1.0", "8-bit ALU, bit-serial adder and datapath simulator", "",
    "Use --help for available commands"]

def usageLines : List String :=
  ["8-bit ALU, bit-serial adder and micro-operation datapath simulator", "",
    "Usage: bytelab [OPTIONS] [COMMAND]", "",
    "Commands:",
    "  alu      Evaluate one ALU operation",
    "  add      Add or subtract with the bit-serial adder",
    "  run      Run a micro-program to completion",
    "  debug    Interactive terminal stepper",
    "  presets  List the built-in micro-programs",
    "  inspect  Show a saved snapshot"]

end ByteMachine
