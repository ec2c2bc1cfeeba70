/-
The machine as a web page works it. The page keeps no clock in the machine: it asks for the interval once and then calls
for a tick at every interval, until it is told that the machine is not running any more.

Contents:
- `Page.step`, `Page.tick`, `Page.interval`: what the page calls where its answer differs from the machine's own.
-/
import ByteMachine.Machine

namespace ByteMachine.Page

/-- one step; the executed statement, if one was executed -/
def step (m : Machine) : Option TraceEntry × Machine :=
  match m.step with
  | (.executed entry, m) => (some entry, m)
  | (.restarted, m) => (none, m)

/-- one tick; is the machine still running? -/
def tick (m : Machine) : Bool × Machine :=
  let m := m.tick.2
  (m.isRunning, m)

/-- the milliseconds between two ticks, at most what 32 bits hold -/
def interval (m : Machine) : Nat :=
  min m.config.clockIntervalMs 0xffffffff

end ByteMachine.Page
