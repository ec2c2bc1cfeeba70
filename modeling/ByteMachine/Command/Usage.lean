/-
From arguments to a command.

Rules:
- options before the command belong to the program, those after it to the command;
- a flag or a value is given once, except memory cells and registers to set;
- values are read in the order in which they stand, and the first fault counts;
- a program comes from a preset, from a program text or from a snapshot, and never from two of them.

Contents:
- `UsageError`: why arguments are refused;
- `Settings`: what has been given so far;
- `Verb`: the commands by name, with their grammars;
- `Command.ofArguments`: the command that arguments ask for.
-/
import ByteMachine.Command
import ByteMachine.Command.Argument
import ByteMachine.Command.Value
import ByteMachine.Text.Plain

namespace ByteMachine

/-- why arguments are refused -/
inductive UsageError
  /-- something is missing, unknown, given twice or at odds with something else -/
  | form
  | value (e : ValueError)
  deriving DecidableEq, Repr

/-- what is said of the value that is refused, if it is one; control sequences in it do not reach the terminal -/
def UsageError.reason? : UsageError → Option String
  | .form => none
  | .value e => e.message?.map Text.plain

/-- what is said when arguments are refused -/
def UsageError.lines (e : UsageError) : List String :=
  ["error: " ++ (e.reason?.map ("invalid value: " ++ ·)).getD "arguments that do not go together", "",
    "For more information, try '--help'."]

/-! ## Settings -/

/-- what has been given so far -/
structure Settings where
  flags : List Flag := []
  aluOp : Option AluOp := none
  byteA : Option UInt8 := none
  byteB : Option UInt8 := none
  intA : Option Int := none
  intB : Option Int := none
  adderOp : Option AdderOp := none
  mode : Option Mode := none
  program : Option String := none
  snapshot : Option String := none
  preset : Option String := none
  restoreFrom : Option String := none
  config : Option String := none
  interval : Option Nat := none
  cells : List (Nat × UInt8) := []
  registers : List (Nat × UInt8) := []
  limit : Option Nat := none
  saveTo : Option String := none
  deriving DecidableEq, Repr

/-- what makes reading end early -/
inductive Detour
  /-- another command than the one that was named -/
  | instead (c : Command)
  | refused (e : UsageError)
  deriving DecidableEq, Repr

namespace Settings

/-- a value for a place that holds one at most -/
def once {α : Type} (old : Option α) (new : Except ValueError α) : Except UsageError (Option α) :=
  match old, new with
  | some _, _ => .error .form
  | none, .error e => .error (.value e)
  | none, .ok a => .ok (some a)

/-- a value for a place that holds any number of them -/
def further {α : Type} (old : List α) (new : Except ValueError α) : Except UsageError (List α) :=
  match new with
  | .error e => .error (.value e)
  | .ok a => .ok (old ++ [a])

def fill (s : Settings) (slot : Slot) (text : String) : Except UsageError Settings := do
  match slot with
  | .aluOp => return { s with aluOp := ← once s.aluOp ((AluOp.parse text).mapError .aluOp) }
  | .byteA => return { s with byteA := ← once s.byteA (readByte text) }
  | .byteB => return { s with byteB := ← once s.byteB (readByte text) }
  | .intA => return { s with intA := ← once s.intA (readInt32 text) }
  | .intB => return { s with intB := ← once s.intB (readInt32 text) }
  | .adderOp => return { s with adderOp := ← once s.adderOp ((AdderOp.parse text).mapError .adderOp) }
  | .mode => return { s with mode := ← once s.mode ((Mode.parse text).mapError .mode) }
  | .program => return { s with program := ← once s.program (readPath text) }
  | .snapshot => return { s with snapshot := ← once s.snapshot (readPath text) }
  | .preset => return { s with preset := ← once s.preset (.ok text) }
  | .restoreFrom => return { s with restoreFrom := ← once s.restoreFrom (readPath text) }
  | .config => return { s with config := ← once s.config (readPath text) }
  | .interval => return { s with interval := ← once s.interval (readWord text) }
  | .poke => return { s with cells := ← further s.cells (readAssignment text) }
  | .register => return { s with registers := ← further s.registers (readAssignment text) }
  | .maxSteps => return { s with limit := ← once s.limit (readWord text) }
  | .saveTo => return { s with saveTo := ← once s.saveTo (readPath text) }

def raise (s : Settings) : Flag → Except Detour Settings
  | .version => .error (.instead .version)
  | .help => .error (.instead .usage)
  | f => if s.flags.contains f then .error (.refused .form) else .ok { s with flags := f :: s.flags }

def take (s : Settings) : Given → Except Detour Settings
  | .flag f => s.raise f
  | .opened _ => .ok s
  | .attached slot text | .separate slot text => (s.fill slot text).mapError .refused

/-- the settings of a row of arguments -/
def ofArguments (g : Grammar) (args : List String) : Except Detour Settings := do
  let reading := g.read args
  let settings ← (settled reading).foldlM take {}
  if reading.2 then .ok settings else .error (.refused .form)

def has (s : Settings) (f : Flag) : Bool :=
  s.flags.contains f

/-- where the program comes from; a preset, if nothing is said -/
def source (s : Settings) : Except UsageError Source :=
  match s.preset, s.program, s.restoreFrom with
  | none, none, none => .ok ({} : Setup).source
  | some name, none, none => .ok (.preset name)
  | none, some path, none => .ok (.program path)
  | none, none, some path => .ok (.snapshot path)
  | _, _, _ => .error .form

def setup (s : Settings) : Except UsageError Setup := do
  return {
    source := ← s.source
    config := s.config
    interval := s.interval
    cells := s.cells
    registers := s.registers
    strict := s.has .strict }

end Settings

/-! ## Verbs -/

/-- the commands that have a name -/
inductive Verb
  | alu
  | add
  | run
  | debug
  | presets
  | inspect
  deriving DecidableEq, Repr

namespace Verb

def all : List Verb :=
  [.alu, .add, .run, .debug, .presets, .inspect]

def name : Verb → String
  | .alu => "alu"
  | .add => "add"
  | .run => "run"
  | .debug => "debug"
  | .presets => "presets"
  | .inspect => "inspect"

def named? (s : String) : Option Verb :=
  all.find? fun v => v.name == s

/-- the options that every command takes -/
def commonOptions : List OptionForm :=
  [⟨"verbose", some 'v', .flag .verbose⟩, ⟨"help", some 'h', .flag .help⟩]

def setupOptions : List OptionForm :=
  [⟨"preset", some 'p', .value .preset⟩, ⟨"import", none, .value .restoreFrom⟩,
    ⟨"config", some 'c', .value .config⟩, ⟨"interval", none, .value .interval⟩, ⟨"poke", none, .value .poke⟩,
    ⟨"reg", none, .value .register⟩, ⟨"strict", none, .flag .strict⟩, ⟨"export", none, .value .saveTo⟩]

def grammar : Verb → Grammar
  | .alu => { options := commonOptions ++ [⟨"json", none, .flag .json⟩], operands := [.aluOp, .byteA, .byteB] }
  | .add =>
    { options :=
        commonOptions ++
          [⟨"op", some 'o', .value .adderOp⟩, ⟨"mode", some 'm', .value .mode⟩, ⟨"json", none, .flag .json⟩]
      operands := [.intA, .intB]
      signed := true }
  | .run =>
    { options :=
        commonOptions ++ setupOptions ++
          [⟨"max-steps", none, .value .maxSteps⟩, ⟨"trace", some 't', .flag .trace⟩]
      operands := [.program] }
  | .debug => { options := commonOptions ++ setupOptions, operands := [.program] }
  | .presets => { options := commonOptions }
  | .inspect => { options := commonOptions ++ [⟨"config", some 'c', .value .config⟩], operands := [.snapshot] }

/-- how many statements are executed, if nothing is said -/
def defaultLimit : Nat := 10000

/-- the command with these settings -/
def command (v : Verb) (s : Settings) : Except UsageError Command :=
  match v with
  | .alu =>
    match s.aluOp, s.byteA with
    | some op, some a => .ok (.alu op a (s.byteB.getD 0) (s.has .json))
    | _, _ => .error .form
  | .add =>
    match s.intA, s.intB with
    | some a, some b => .ok (.add a b (s.adderOp.getD .add) (s.mode.getD .unsigned) (s.has .json))
    | _, _ => .error .form
  | .run => do return .run (← s.setup) (s.limit.getD defaultLimit) (s.has .trace) s.saveTo
  | .debug => do return .debug (← s.setup) s.saveTo
  | .presets => .ok .presets
  | .inspect =>
    match s.snapshot with
    | some path => .ok (.inspect path s.config)
    | none => .error .form

end Verb

/-! ## Commands -/

namespace Command

/-- the options before the command -/
def topGrammar : Grammar :=
  { options := ⟨"version", some 'V', .flag .version⟩ :: Verb.commonOptions }

/-- the arguments before the first that names a command, the command, and the arguments after it; a divider before it
takes it for an operand -/
def splitVerb : List String → List String × Option (Verb × List String)
  | [] => ([], none)
  | arg :: args =>
    if arg = "--" then (arg :: args, none)
    else
      match Verb.named? arg with
      | some v => ([], some (v, args))
      | none =>
        let (before, rest) := splitVerb args
        (arg :: before, rest)

/-- the command that the arguments ask for, or what it was left for -/
def reading (args : List String) : Except Detour Command := do
  let (before, rest) := splitVerb args
  let _ ← Settings.ofArguments topGrammar before
  match rest with
  | none => return .about
  | some (v, args) =>
    let settings ← Settings.ofArguments v.grammar args
    (v.command settings).mapError .refused

def ofArguments (args : List String) : Except UsageError Command :=
  match reading args with
  | .ok c | .error (.instead c) => .ok c
  | .error (.refused e) => .error e

end Command

end ByteMachine
