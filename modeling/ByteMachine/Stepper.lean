/-
The stepper: a machine with a clock, a message and a scrolled view of memory, worked by hand or by the clock.

Contents:
- `Stepper`: the state;
- `Stepper.ofMachine`: a stepper around a machine;
- `StepperOp`, `Stepper.perform`: what can be done with it. A step by hand stops the clock, and so does a tick that
  leaves the machine not running;
- `Stepper.memoryRows`: how many rows of eight cells there are to scroll through.
-/
import ByteMachine.Clock
import ByteMachine.Machine

namespace ByteMachine

structure Stepper where
  machine : Machine
  /-- counts in milliseconds -/
  clock : Clock
  quit : Bool := false
  /-- the message of the status panel -/
  message : String
  /-- the first row of the memory panel -/
  memoryRow : Nat := 0
  deriving DecidableEq

/-- what can be done with a stepper; times are in milliseconds -/
inductive StepperOp
  | step
  | run (now : Nat)
  | pause
  | tick (now : Nat)
  | reset
  | scroll (down : Bool)
  deriving DecidableEq, Repr

namespace Stepper

def ofMachine (m : Machine) : Stepper :=
  { machine := m
    clock := { interval := m.config.clockIntervalMs }
    message := "Ready. Press 's' to step, 'r' to run, 'q' to quit." }

/-- what is said of a step, when `m` is the machine after it -/
def describe (m : Machine) : StepOutcome → String
  | .executed entry =>
    "Step " ++ Text.numeral entry.step ++ ": " ++ entry.operation ++ "  →  " ++ entry.result ++
      (if m.isCompleted then "  (completed)" else "")
  | .restarted => "End of program, back to step 0."

/-- one step by hand; automatic stepping stops -/
def step (s : Stepper) : Stepper :=
  let (outcome, machine) := s.machine.pause.step
  { s with machine, clock := s.clock.stop, message := describe machine outcome }

/-- automatic stepping, if there is something to run -/
def run (s : Stepper) (now : Nat) : Stepper :=
  let machine := s.machine.run
  if machine.isRunning then
    { s with
      machine
      clock := s.clock.start now
      message := "Running, one step every " ++ Text.numeral s.clock.interval ++ " ms..." }
  else { s with machine, message := "Nothing to run." }

def pause (s : Stepper) : Stepper :=
  let machine := s.machine.pause
  { s with
    machine
    clock := s.clock.stop
    message := "Paused at step " ++ Text.numeral machine.state.currentStep ++ "." }

/-- a step if the clock has fired -/
def tick (s : Stepper) (now : Nat) : Stepper :=
  if s.clock.isDue now then
    let (outcome, machine) := s.machine.tick
    let clock := s.clock.poll now
    { s with
      machine
      clock := if machine.isRunning then clock else clock.stop
      message := (outcome.map (describe machine)).getD s.message }
  else s

/-- everything zero, the program stays -/
def reset (s : Stepper) : Stepper :=
  { s with machine := s.machine.reset, clock := s.clock.stop, message := "Reset. Ready." }

/-- how many rows of eight cells the memory has, the last one perhaps shorter -/
def memoryRows (s : Stepper) : Nat :=
  (s.machine.state.memory.size + 7) / 8

/-- one row down or up, as far as there are rows -/
def scroll (s : Stepper) (down : Bool) : Stepper :=
  if down then
    if s.memoryRow + 1 < s.memoryRows then { s with memoryRow := s.memoryRow + 1 } else s
  else { s with memoryRow := s.memoryRow - 1 }

def perform (s : Stepper) : StepperOp → Stepper
  | .step => s.step
  | .run now => s.run now
  | .pause => s.pause
  | .tick now => s.tick now
  | .reset => s.reset
  | .scroll down => s.scroll down

/-- the stepper after a sequence of operations -/
def performAll (s : Stepper) (ops : List StepperOp) : Stepper :=
  ops.foldl perform s

end Stepper

end ByteMachine
