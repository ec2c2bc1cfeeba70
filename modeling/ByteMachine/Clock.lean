/-
The clock that drives automatic steps. It is asked whether a step is due and never waits. Times and intervals are
numbers of one unit, whichever the caller counts in.

Contents:
- `Clock`: the interval, and the time of the next tick while it runs;
- `Clock.start`, `Clock.stop`, `Clock.poll`: the operations. A tick that fires puts the next one an interval later,
  counted from when it was asked for;
- `Clock.untilNext?`: how long to wait.

Main statement: `poll_after_untilNext` (waiting as long as it says is long enough, and not too long).
-/

namespace ByteMachine

structure Clock where
  interval : Nat
  /-- the time of the next tick, while the clock runs -/
  next : Option Nat := none
  deriving DecidableEq, Repr

namespace Clock

def isRunning (c : Clock) : Bool :=
  c.next.isSome

/-- the first tick is one interval after `now` -/
def start (c : Clock) (now : Nat) : Clock :=
  { c with next := some (now + c.interval) }

def stop (c : Clock) : Clock :=
  { c with next := none }

/-- is a tick due? -/
def isDue (c : Clock) (now : Nat) : Bool :=
  match c.next with
  | some next => next ≤ now
  | none => false

/-- the clock after being asked; a tick that fires schedules the next one -/
def poll (c : Clock) (now : Nat) : Clock :=
  if c.isDue now then c.start now else c

/-- the time left before the next tick, while the clock runs; an overdue tick leaves none -/
def untilNext? (c : Clock) (now : Nat) : Option Nat :=
  c.next.map (· - now)

/-- waiting as long as it says is long enough, and not too long -/
theorem poll_after_untilNext (c : Clock) (now d t : Nat) (h : c.untilNext? now = some d) (ht : now ≤ t) :
    c.isDue t = true ↔ now + d ≤ t := by
  obtain ⟨next, hn, rfl⟩ := Option.map_eq_some_iff.1 h
  simp only [isDue, hn, decide_eq_true_eq]
  omega

end Clock

end ByteMachine
