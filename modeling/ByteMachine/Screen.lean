/-
The screen of the stepper: six panels in two columns. At the left the program, the registers and the status; at the
right the memory, the trace and the help. The left column takes 55 parts of a hundred of the width, a half rounded up.

Contents:
- `Stepper.programPanel`, `registersPanel`, `statusPanel`, `memoryPanel`, `tracePanel`, `helpPanel`: what each shows;
- `Stepper.memoryItems`, `traceItems`: the rows that fit a height;
- `Stepper.draw`: the screen as rows of cells.
-/
import ByteMachine.Screen.Panel
import ByteMachine.Stepper

namespace ByteMachine.Stepper

/-! ## Left column -/

def listingItem (l : ListingLine) : Item where
  lines := plainLines l.render
  style := if l.isNext then .boldOf .yellow else if l.isUnknown then .of .red else .plain

/-- the listing, the next statement in bold and statements that are no transfer in red -/
def programPanel (s : Stepper) : Panel where
  title :=
    match s.machine.preset with
    | some name => " Program: " ++ name ++ " "
    | none => " Program "
  border := some .cyan
  items := s.machine.listing.map listingItem

/-- a byte in a field of four characters -/
def field (b : UInt8) (c : Colour) : Span where
  text := String.ofList (Text.padRight 4 (Text.decimal b.toNat))
  style := .of c

def flagSpan (name : String) (set : Bool) : Span where
  text := name ++ " "
  style := if set then .boldOf .green else .of .darkGray

def flagSpans (f : Flags) : Line :=
  [flagSpan "Z" f.zero, flagSpan "N" f.negative, flagSpan "C" f.carry, flagSpan "V" f.overflow]

def statusColour : RunStatus → Colour
  | .running => .green
  | .paused => .yellow
  | .completed => .cyan
  | .idle => .gray

def label (text : String) : Span where
  text := text

/-- registers, buses, status and both sets of flags -/
def registersPanel (s : Stepper) : Panel where
  title := " Registers "
  border := some .green
  items :=
    let state := s.machine.state
    let r := state.registers
    [ .ofLine [label "PC: ", field r.pc .yellow, label "IR: ", field r.ir .white, label "MAR: ", field r.mar .white,
        label "MDR: ", field r.mdr .white],
      .ofLine (r.general.zipIdx.flatMap fun (b, n) => [label ("R" ++ Text.numeral n ++ ":"), field b .white]),
      .ofLine [label "A: ", field state.busA .white, label "B: ", field state.busB .white, label "ALU: ",
        field state.aluResult .cyan, label "State: ", ⟨state.status.title, .of (statusColour state.status)⟩],
      .ofLine (label "FLAGS: " :: flagSpans state.flags ++ label "   ALU.flags: " :: flagSpans state.aluFlags) ]

/-- the message -/
def statusPanel (s : Stepper) : Panel where
  title := " Status "
  base := some .white
  items := (plainLines s.message).map .ofLine

/-! ## Right column -/

/-- the style of a memory cell: the one that the address register names stands out -/
def cellStyle (mar address : Nat) (b : UInt8) : Style :=
  if address = mar then .boldOf .yellow else if b = 0 then .of .darkGray else .of .white

/-- row `row` of the memory: its address and up to eight cells -/
def memoryLine (m : Memory) (mar row : Nat) : Line :=
  ⟨Text.hexByte (UInt8.ofNat (8 * row)) ++ ": ", .of .darkGray⟩ ::
    (m.dump (8 * row) 8).map fun (address, b) => ⟨Text.hexByte b ++ " ", cellStyle mar address b⟩

/-- how many rows a panel of this height has inside its border -/
def innerHeight (height : Nat) : Nat :=
  height - 2

/-- the numbers of the memory rows that a panel of this height shows -/
def visibleRows (s : Stepper) (height : Nat) : List Nat :=
  ((List.range s.memoryRows).drop s.memoryRow).take (innerHeight height)

def memoryItems (s : Stepper) (height : Nat) : List Item :=
  let state := s.machine.state
  (s.visibleRows height).map fun row => .ofLine (memoryLine state.memory state.registers.mar.toNat row)

def memoryPanel (s : Stepper) (height : Nat) : Panel where
  title := " Memory "
  border := some .magenta
  items := s.memoryItems height

/-- a trace entry: its step, its source in a field of eighteen characters, and its result -/
def traceText (e : TraceEntry) : String :=
  Text.padded 2 e.step ++ "  " ++ String.ofList (Text.padRight 18 e.operation.toList) ++ " " ++ e.result

/-- the newest trace entries that a panel of this height has lines for -/
def visibleTrace (s : Stepper) (height : Nat) : List TraceEntry :=
  let trace := s.machine.state.trace
  trace.drop (trace.length - innerHeight height)

def traceItems (s : Stepper) (height : Nat) : List Item :=
  (s.visibleTrace height).map fun e => { lines := plainLines (traceText e) }

def tracePanel (s : Stepper) (height : Nat) : Panel where
  title := " Trace (" ++ Text.numeral s.machine.state.trace.length ++ ") "
  items := s.traceItems height

def helpPanel : Panel where
  title := " Help "
  base := some .darkGray
  items :=
    [ .ofLine [label "s: Step  r: Run  p: Pause  space: Run/Pause"],
      .ofLine [label "x: Reset  ↑↓: Scroll memory  q: Quit"] ]

/-! ## The whole screen -/

/-- the width of the left column -/
def leftWidth (width : Nat) : Nat :=
  (55 * width + 50) / 100

/-- the heights of the panels below the top one -/
def registersHeight : Nat := 7

def statusHeight : Nat := 3

def traceHeight : Nat := 10

def helpHeight : Nat := 4

/-- the screen as rows of cells -/
def draw (s : Stepper) (width height : Nat) : List (List Cell) :=
  let left := leftWidth width
  let right := width - left
  let programHeight := height - registersHeight - statusHeight
  let memoryHeight := height - traceHeight - helpHeight
  List.zipWith (· ++ ·)
    (s.programPanel.render left programHeight ++ s.registersPanel.render left registersHeight ++
      s.statusPanel.render left statusHeight)
    ((s.memoryPanel memoryHeight).render right memoryHeight ++ (s.tracePanel traceHeight).render right traceHeight ++
      helpPanel.render right helpHeight)

/-- the characters of a row -/
def rowText (row : List Cell) : String :=
  String.ofList (row.map Cell.char)

/-- the styles of a row -/
def rowStyles (row : List Cell) : String :=
  ", ".intercalate ((runsOf row).map StyleRun.text)

end ByteMachine.Stepper
