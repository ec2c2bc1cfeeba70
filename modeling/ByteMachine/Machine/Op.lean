/-
Operations on a machine, as data, with the reply to each. Whatever is done to a machine from outside is a sequence of
these operations.

An operation that may be refused makes all its checks before it changes anything. So an error comes without a machine,
and `Machine.orRefuse` puts the machine from before beside it. The operations that are not refused, but may be answered
with `false`, give a reply and a machine in any case.

Contents:
- `Op`: the operations;
- `Reply`: what an operation answers;
- `Machine.perform`: one operation;
- `Machine.performAll`: a sequence of them.

Main statement: `perform_refused` (an operation that is refused leaves the machine as it was).
-/
import ByteMachine.Snapshot

namespace ByteMachine

inductive Op
  | load (texts : List String)
  | loadSource (source : String)
  | loadPreset (name : String)
  | step
  | tick
  | run
  | pause
  | toggle
  | runToCompletion (limit : Nat)
  | reset
  | setRegister (n : Nat) (b : UInt8)
  | writeMemory (address : Nat) (b : UInt8)
  | storeMemory (address : Nat) (b : UInt8)
  | assign (name : NamedRegister) (b : UInt8)
  | restore (s : Snapshot)
  | restoreText (text : String)

/-- why an operation is refused -/
inductive OpError
  | load (e : LoadError)
  | address (e : AddressOutOfRange)
  | snapshot (e : SnapshotError)
  deriving DecidableEq, Repr

def OpError.message : OpError → String
  | .load e => e.message
  | .address e => e.message
  | .snapshot e => e.message

/-- what an operation answers -/
inductive Reply
  /-- nothing to say -/
  | done
  /-- it was carried out -/
  | accepted
  /-- it was not carried out -/
  | refused (e : OpError)
  /-- running afterwards? written? -/
  | answer (b : Bool)
  /-- what a step did -/
  | stepped (outcome : StepOutcome)
  /-- what a tick did, if the machine was running -/
  | ticked (outcome : Option StepOutcome)
  /-- the number of executed statements; is the program completed? -/
  | executed (n : Nat) (completed : Bool)
  deriving DecidableEq, Repr

namespace Machine

/-- the reply to something that may be refused. It is, if at all, before the machine changes, so after an error there
is the machine from before. -/
def orRefuse {ε : Type} (m : Machine) (toError : ε → OpError) : Except ε Machine → Reply × Machine
  | .error e => (.refused (toError e), m)
  | .ok m => (.accepted, m)

def perform (m : Machine) : Op → Reply × Machine
  | .load texts => m.orRefuse .load (m.loadTexts texts)
  | .loadSource source => m.orRefuse .load (m.loadSource source)
  | .loadPreset name => m.orRefuse .load (m.loadPreset name)
  | .step => (.stepped m.step.1, m.step.2)
  | .tick => (.ticked m.tick.1, m.tick.2)
  | .run => (.answer m.run.isRunning, m.run)
  | .pause => (.answer m.pause.isRunning, m.pause)
  | .toggle => (.answer m.toggle.isRunning, m.toggle)
  | .runToCompletion limit =>
    let (executed, m) := m.runToCompletion limit
    (.executed executed m.isCompleted, m)
  | .reset => (.done, m.reset)
  | .setRegister n b => (.answer (m.state.registers.holds n), m.setRegister n b)
  | .writeMemory address b => (.answer (m.state.memory.holds address), m.writeMemory address b)
  | .storeMemory address b => m.orRefuse .address (m.storeMemory address b)
  | .assign name b => (.done, m.assign name b)
  | .restore s => m.orRefuse .snapshot (m.restore s)
  | .restoreText text => m.orRefuse .snapshot (m.restoreText text)

/-- the machine after a sequence of operations -/
def performAll (m : Machine) (ops : List Op) : Machine :=
  ops.foldl (fun m op => (m.perform op).2) m

theorem performAll_cons (m : Machine) (op : Op) (ops : List Op) :
    m.performAll (op :: ops) = (m.perform op).2.performAll ops := rfl

theorem performAll_append (m : Machine) (before after : List Op) :
    m.performAll (before ++ after) = (m.performAll before).performAll after := by
  simp [performAll]

theorem orRefuse_refused {ε : Type} {m : Machine} {toError : ε → OpError} {r : Except ε Machine} {e : OpError}
    (h : (m.orRefuse toError r).1 = .refused e) : (m.orRefuse toError r).2 = m := by
  cases r with
  | error e => rfl
  | ok m => cases h

/-- an operation that is refused leaves the machine as it was -/
theorem perform_refused (m : Machine) (op : Op) (e : OpError) (h : (m.perform op).1 = .refused e) :
    (m.perform op).2 = m := by
  cases op with
  | load | loadSource | loadPreset | storeMemory | restore | restoreText => exact orRefuse_refused h
  | _ => cases h

end Machine

end ByteMachine
