/-
What changes while a machine works.

Contents:
- `RunStatus`: idle, running, paused or completed;
- `TraceEntry`: one executed statement;
- `State`: registers, memory, buses, results, the pointer to the next statement, the trace and the status;
- `State.initial`, `State.reset`: everything zero.
-/
import ByteMachine.Config
import ByteMachine.Flags
import ByteMachine.Memory
import ByteMachine.Registers

namespace ByteMachine

inductive RunStatus
  | idle
  | running
  | paused
  | completed
  deriving DecidableEq, Repr

def RunStatus.name : RunStatus → String
  | .idle => "idle"
  | .running => "running"
  | .paused => "paused"
  | .completed => "completed"

/-- the name with a capital letter -/
def RunStatus.title : RunStatus → String
  | .idle => "Idle"
  | .running => "Running"
  | .paused => "Paused"
  | .completed => "Completed"

/-- one executed statement: its place, its source and what it did -/
structure TraceEntry where
  step : Nat
  operation : String
  result : String
  deriving DecidableEq, Repr

structure State where
  registers : Registers
  memory : Memory
  busA : UInt8 := 0
  busB : UInt8 := 0
  aluResult : UInt8 := 0
  /-- the flags of the last result -/
  aluFlags : Flags := .clear
  /-- the flags that the program has latched -/
  flags : Flags := .clear
  /-- the place of the next statement -/
  currentStep : Nat := 0
  /-- the executed statements, the oldest first -/
  trace : List TraceEntry := []
  status : RunStatus := .idle
  deriving DecidableEq, Repr

namespace State

/-- everything zero, in the sizes that the configuration asks for -/
def initial (c : Config) : State :=
  { registers := .zeroed c.registerCount, memory := .zeroed c.memorySize }

/-- everything zero, in the sizes that are there -/
def reset (s : State) : State :=
  { registers := s.registers.reset, memory := s.memory.clear }

/-- the pointer at the first statement, no trace, idle; registers, memory, buses and flags stay -/
def rewind (s : State) : State :=
  { s with currentStep := 0, trace := [], status := .idle }

end State

end ByteMachine
