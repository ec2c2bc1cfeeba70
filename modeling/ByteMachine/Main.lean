/-
The program on a computer: arguments, files, keys and the screen. Nothing is decided here. What a command reads is
brought in as a `Directory`, what it says is printed, and what it saves is written.

Contents:
- `load`: the directory that a command needs, from the disk;
- `finish`: the end of a command;
- `live`: the stepper on a terminal that hands over its input line by line. Between the lines the clock goes on.
-/
import ByteMachine.Command.Usage
import ByteMachine.Screen
import ByteMachine.Stepper.Input

namespace ByteMachine.Main

/-! ## Files -/

/-- a place as the system writes it -/
def pathText : List String → String
  | [] => "."
  | name :: names =>
    if name = Path.root then Path.root ++ "/".intercalate names else "/".intercalate (name :: names)

/-- the number of the system's error for a folder that is read like a file -/
def folderError : UInt32 := 21

/-- what is on the disk at this place -/
def found? (names : List String) : IO (Option Entry) := do
  match ← (IO.FS.readBinFile (pathText names)).toBaseIO with
  | .ok bytes => return some ((String.fromUTF8? bytes).elim .binary .text)
  | .error (.inappropriateType _ code _) => return if code = folderError then some .folder else none
  | .error (.noFileOrDirectory _ _ _) | .error (.invalidArgument _ _ _) => return none
  | .error e => throw e

/-- brings in a place, if there is something -/
def bring (d : Directory) (names : List String) : IO Directory := do
  match ← found? names with
  | none => return d
  | some e => return d.put names e

/-- brings in what a path means, and the folders on the way -/
def bringAll (d : Directory) (path : String) : IO Directory :=
  (Path.ofText path).places.foldlM bring d

/-- the directory that a command needs, from the disk -/
def load (c : Command) : IO Directory :=
  (c.reads ++ c.saveTo.toList).foldlM bringAll {}

/-! ## The end of a command -/

def say (o : Outcome) : IO Unit := do
  IO.print (Outcome.text o.out)
  IO.eprint (Outcome.text o.err)

/-- writes what was saved, says what there is to say, and gives the exit code -/
def finish (d : Directory) (saveTo : Option String) (o : Outcome) : IO UInt32 := do
  if let some path := saveTo then
    if o.files ≠ d then
      if let .ok text := o.files.read path then
        IO.FS.writeFile path text
  say o
  return o.exit.toUInt32

/-! ## The terminal -/

/-- the number of a colour among the terminal's -/
def colourCode : Colour → Nat
  | .red => 31
  | .green => 32
  | .yellow => 33
  | .magenta => 35
  | .cyan => 36
  | .gray => 37
  | .darkGray => 90
  | .white => 97

/-- the sequence that turns a style on -/
def styleCode (s : Style) : String :=
  "\x1b[0" ++ (if s.bold then ";1" else "") ++ (s.colour.elim "" fun c => ";" ++ Text.numeral (colourCode c)) ++ "m"

def cellCode (c : Cell) : String :=
  styleCode c.style ++ c.char.toString

/-- how many columns and rows the terminal has -/
def columns : Nat := 80

def rows : Nat := 24

/-- the screen, drawn over the last one; the input is seen below it -/
def paint (s : Stepper) : IO Unit := do
  let lines := (s.draw columns rows).map fun row => String.join (row.map cellCode)
  IO.print ("\x1b[H" ++ "\r\n".intercalate lines ++ "\x1b[0m\r\n\x1b[K")
  (← IO.getStdout).flush

/-- the longest wait between two looks at the input, in milliseconds -/
def frame : Nat := 50

/-- the stepper on the terminal, until a key or the end of the input ends the session -/
partial def live (input : IO.FS.Stream) (line : Task (Except IO.Error String)) (mode : InputMode) (s : Stepper) :
    IO Stepper := do
  let now ← IO.monoMsNow
  if ← IO.hasFinished line then
    let typed ← IO.ofExcept line.get
    let s := s.play now (mode.keys typed.toList)
    paint s
    if s.quit || typed.isEmpty then return s
    live input (← IO.asTask input.getLine) (mode.after typed.toList) s
  else
    let next := s.tick now
    if next ≠ s then paint next
    IO.sleep (min frame ((next.clock.untilNext? now).getD frame)).toUInt32
    live input line mode next

/-- a session on the terminal -/
def session (d : Directory) (setup : Setup) (saveTo : Option String) : IO UInt32 := do
  match Session.opened d setup with
  | (before, none) => finish d none before
  | (before, some s) =>
    say before
    IO.print "\x1b[?1049h"
    paint s
    let input ← IO.getStdin
    let s ← live input (← IO.asTask input.getLine) .ground s
    IO.print "\x1b[?1049l"
    let after := Session.closed before saveTo s
    finish d saveTo { after with err := after.err.drop before.err.length }

end ByteMachine.Main

open ByteMachine in
def main (args : List String) : IO UInt32 := do
  match Command.ofArguments args with
  | .error e =>
    IO.eprint (Outcome.text e.lines)
    return 2
  | .ok c =>
    let d ← Main.load c
    match c with
    | .debug setup saveTo => Main.session d setup saveTo
    | _ => Main.finish d c.saveTo (c.perform d [])
