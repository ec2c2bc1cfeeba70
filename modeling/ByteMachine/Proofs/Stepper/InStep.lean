/-
Clock and machine of a stepper keep in step.

A handler changes both: a step by hand, a pause and a reset stop the clock and leave a machine that is not running;
starting starts the clock if the machine is running then, and a machine that cannot be started was not running before; a
tick goes by what the machine is after it. So no stepper looks running and never steps, and none has a clock that ticks
for a machine that stands still. The view of memory is moved by scrolling only, and only to rows that are there.

Contents:
- `Coherent`, `StaysCoherent`: what is seen of a stepper, and of all steppers around a machine;
- `InStep`: the invariant, for a memory of a given size.

Main statements:
- `InStep.perform`, `InStep.performAll`: one operation and a whole run keep the invariant;
- `stepper_in_step`: every stepper around a machine that is not running is coherent after any operations.
-/
import Mathlib.Tactic
import ByteMachine.Proofs.Command.Preparing
import ByteMachine.Proofs.Machine.Restarting
import ByteMachine.Stepper

namespace ByteMachine

/-! ## Machines that stand still -/

/-- a statement starts no machine -/
theorem State.statusAfter_ne_running {status : RunStatus} (h : status ≠ .running) (next length : ℕ) :
    statusAfter status next length ≠ .running := by
  rcases Nat.lt_or_ge next length with hlt | hle
  · rw [statusAfter_of_lt _ hlt, if_neg h]
    exact RunStatus.noConfusion
  · rw [statusAfter_of_le _ hle]
    exact RunStatus.noConfusion

namespace Machine

theorem isRunning_iff (m : Machine) : m.isRunning = true ↔ m.state.status = .running := by
  simp [isRunning]

theorem isRunning_eq_false_iff (m : Machine) : m.isRunning = false ↔ m.state.status ≠ .running := by
  simp [isRunning]

/-- a step by hand starts no machine -/
theorem isRunning_step {m : Machine} (h : m.isRunning = false) : m.step.2.isRunning = false := by
  rw [isRunning_eq_false_iff] at h ⊢
  rcases m.step_cases with ⟨-, hs⟩ | ⟨s, -, hlt, -⟩
  · rw [hs]
    show m.state.restart.status ≠ .running
    rw [State.restart_status h]
    split_ifs <;> exact RunStatus.noConfusion
  · rw [status_step hlt]
    exact State.statusAfter_ne_running h _ _

theorem isRunning_pause (m : Machine) : m.pause.isRunning = false := by
  rw [isRunning_eq_false_iff, m.pause_eq]
  exact m.state.paused_status_ne_running

/-- starting stops no machine, so one that is not running afterwards was not running before -/
theorem isRunning_of_run {m : Machine} (h : m.run.isRunning = false) : m.isRunning = false := by
  unfold run at h
  split_ifs at h with he
  · exact h
  · exact absurd h (by simp [isRunning])

/-! ## The size of memory -/

@[simp] theorem memorySize_step (m : Machine) : m.step.2.state.memory.size = m.state.memory.size := by
  rcases m.step_cases with ⟨-, hs⟩ | ⟨s, -, -, hs⟩
  · rw [hs]
    rfl
  · rw [hs]
    exact State.execute_size ..

@[simp] theorem memorySize_run (m : Machine) : m.run.state.memory.size = m.state.memory.size := by
  unfold run
  split_ifs
  · rfl
  · rfl

@[simp] theorem memorySize_pause (m : Machine) : m.pause.state.memory.size = m.state.memory.size := by
  rw [m.pause_eq]
  simp

@[simp] theorem memorySize_tick (m : Machine) : m.tick.2.state.memory.size = m.state.memory.size := by
  by_cases hr : m.state.status = .running
  · rw [tick_of_running hr, memorySize_step]
  · rw [tick_of_not_running hr]

end Machine

/-! ## Steppers -/

namespace Stepper

/-- scrolling goes only to rows that begin with a cell -/
theorem row_scroll {s : Stepper} (h : 8 * s.memoryRow < s.machine.state.memory.size) (down : Bool) :
    8 * (s.scroll down).memoryRow < s.machine.state.memory.size := by
  unfold Stepper.scroll
  split_ifs with hdown hnext
  · show 8 * (s.memoryRow + 1) < _
    rw [memoryRows] at hnext
    omega
  · exact h
  · show 8 * (s.memoryRow - 1) < _
    omega

/-- the clock runs exactly while the machine is running, and the memory panel begins with a row that is there -/
structure Coherent (s : Stepper) : Prop where
  clock : s.clock.isRunning = true ↔ s.machine.state.status = .running
  row : s.memoryRow < s.memoryRows
  /-- the first cell of that row -/
  cell : s.machine.state.memory.holds (8 * s.memoryRow) = true

/-- any stepper around this machine is coherent after any operations, in whatever unit times are counted -/
def StaysCoherent (m : Machine) : Prop :=
  ∀ (interval : ℕ) (ops : List StepperOp), Coherent (performAll { ofMachine m with clock := { interval } } ops)

/-- the invariant: the memory has `size` cells, clock and machine run together, and the view begins at a cell -/
structure InStep (size : ℕ) (s : Stepper) : Prop where
  memory : s.machine.state.memory.size = size
  clock : s.clock.isRunning = s.machine.isRunning
  row : 8 * s.memoryRow < size

namespace InStep

variable {size : ℕ} {s : Stepper}

theorem coherent (h : InStep size s) : Coherent s where
  clock := by rw [h.clock, Machine.isRunning_iff]
  row := by
    have hr := h.row
    rw [memoryRows, h.memory]
    omega
  cell := by
    rw [Memory.holds, h.memory]
    simpa using h.row

theorem step (h : InStep size s) : InStep size s.step where
  memory := by
    show s.machine.pause.step.2.state.memory.size = size
    rw [Machine.memorySize_step, Machine.memorySize_pause, h.memory]
  clock := (Machine.isRunning_step s.machine.isRunning_pause).symm
  row := h.row

theorem run (h : InStep size s) (now : ℕ) : InStep size (s.run now) := by
  have hm : s.machine.run.state.memory.size = size := s.machine.memorySize_run.trans h.memory
  unfold Stepper.run
  dsimp only
  split_ifs with hr
  · exact ⟨hm, hr.symm, h.row⟩
  · -- the machine was not running before either, so the clock stands still already
    have hn : s.machine.run.isRunning = false := by simpa using hr
    exact ⟨hm, h.clock.trans ((Machine.isRunning_of_run hn).trans hn.symm), h.row⟩

theorem pause (h : InStep size s) : InStep size s.pause where
  memory := s.machine.memorySize_pause.trans h.memory
  clock := s.machine.isRunning_pause.symm
  row := h.row

theorem tick (h : InStep size s) (now : ℕ) : InStep size (s.tick now) := by
  have hm : s.machine.tick.2.state.memory.size = size := s.machine.memorySize_tick.trans h.memory
  unfold Stepper.tick
  split_ifs with hd
  · cases ht : s.machine.tick with
    | mk outcome machine =>
      rw [ht] at hm
      refine ⟨hm, ?_, h.row⟩
      dsimp only
      split_ifs with hr
      · -- the clock has fired, so its next tick is scheduled already
        rw [Clock.poll, if_pos hd, hr]
        rfl
      · simpa [Clock.stop, Clock.isRunning] using hr
  · exact h

theorem reset (h : InStep size s) : InStep size s.reset where
  memory := (Memory.size_clear _).trans h.memory
  clock := rfl
  row := h.row

theorem scroll (h : InStep size s) (down : Bool) : InStep size (s.scroll down) := by
  have hrow : 8 * (s.scroll down).memoryRow < size := h.memory ▸ row_scroll (h.memory.symm ▸ h.row) down
  unfold Stepper.scroll at hrow ⊢
  split_ifs at hrow ⊢
  · exact { h with row := hrow }
  · exact h
  · exact { h with row := hrow }

/-- **One operation keeps clock and machine in step.** -/
theorem perform (h : InStep size s) (op : StepperOp) : InStep size (s.perform op) := by
  cases op with
  | step => exact h.step
  | run now => exact h.run now
  | pause => exact h.pause
  | tick now => exact h.tick now
  | reset => exact h.reset
  | scroll down => exact h.scroll down

/-- **A whole run keeps them in step**, at whatever times its operations come. -/
theorem performAll (h : InStep size s) (ops : List StepperOp) : InStep size (s.performAll ops) := by
  induction ops generalizing s with
  | nil => exact h
  | cons op ops ih => exact ih (h.perform op)

end InStep

/-- a stepper around a machine that is not running begins in step, and stays so -/
theorem staysCoherent_of_not_running {m : Machine} (hr : m.state.status ≠ .running)
    (hm : 0 < m.state.memory.size) : StaysCoherent m := by
  intro interval ops
  have hbegin : InStep m.state.memory.size { ofMachine m with clock := { interval } } :=
    ⟨rfl, (m.isRunning_eq_false_iff.2 hr).symm, hm⟩
  exact (hbegin.performAll ops).coherent

/-- a machine that fits a valid configuration has a cell -/
theorem memorySize_pos {c : Config} {m : Machine} (hv : c.Valid) (hf : Machine.Fitting c m) :
    0 < m.state.memory.size :=
  hf.fits.memory.symm ▸ hv.memory.1

/-- **Clock and machine keep in step.** Take any machine with a cell of memory that is not running. After any operations
of a stepper around it, at any times and in whatever unit these are counted, the clock runs exactly while the machine is
running, and the view of memory begins with a row that is there. Every machine with a valid configuration has a cell,
whatever was done to it before, and every machine that a setup hands over is not running either. -/
theorem stepper_in_step :
    (∀ m : Machine, m.state.status ≠ .running → 0 < m.state.memory.size → StaysCoherent m) ∧
    (∀ (c : Config) (start : Machine), Machine.withConfig c = .ok start → ∀ before : List Op,
      (start.performAll before).state.status ≠ .running → StaysCoherent (start.performAll before)) ∧
    ∀ (setup : Setup) (d : Directory) (p : Prepared), setup.prepare d = .ok p →
      p.machine.state.status ≠ .running ∧ StaysCoherent p.machine := by
  refine ⟨fun m => staysCoherent_of_not_running, fun c start h before hr => ?_, fun setup d p h => ?_⟩
  · obtain ⟨hv, -⟩ := (Machine.withConfig_eq_ok_iff ..).1 h
    exact staysCoherent_of_not_running hr (memorySize_pos hv (Machine.fitting_performAll h before))
  · obtain ⟨c, hv, hf, hr⟩ := Setup.prepared_fitting h
    exact ⟨hr, staysCoherent_of_not_running hr (memorySize_pos hv hf)⟩

/-- three rows of memory, the last one short -/
def threeRows : Config where
  memorySize := 20

/-- down to the last row and not beyond, a start, a tick that comes too early and one that is due -/
def scrolled : List StepperOp :=
  [.scroll true, .scroll true, .scroll true, .run 3, .tick 7, .tick 8]

theorem stepper_in_step_scrolled :
    Machine.withConfig threeRows = .ok (.fresh threeRows) ∧
    let m := (Machine.fresh threeRows).performAll [.load ["PC ← PC + 1", "?", "IR ← MDR"], .step]
    let s := performAll { ofMachine m with clock := { interval := 5 } } scrolled
    m.state.status = .paused ∧ m.state.memory.size = 20 ∧ StaysCoherent m ∧
    (Coherent s ∧ s.machine.state.currentStep = 2 ∧ s.clock.isRunning = true ∧ s.memoryRow = 2) ∧
    ∃ p, ({} : Setup).prepare {} = .ok p ∧ p.machine.state.status ≠ .running ∧
      Coherent ((ofMachine p.machine).performAll [.run 0, .tick 1000, .step]) := by
  have h : Machine.withConfig threeRows = .ok (.fresh threeRows) := rfl
  refine ⟨h, ?_⟩
  intro m s
  have hp : m.state.status = .paused := by decide
  have hn : m.state.status ≠ .running := by rw [hp]; decide
  have hsize : m.state.memory.size = 20 := by decide
  obtain ⟨hany, hreached, hprepared⟩ := stepper_in_step
  have hs : StaysCoherent m := hany m hn (by rw [hsize]; decide)
  obtain ⟨p, hprep⟩ : ∃ p, ({} : Setup).prepare {} = .ok p := ⟨_, rfl⟩
  obtain ⟨hpn, hps⟩ := hprepared {} {} p hprep
  exact ⟨hp, hsize, hs, ⟨hreached threeRows _ h _ hn 5 scrolled, by decide, by decide, by decide⟩,
    p, hprep, hpn, hps _ _⟩

end Stepper

end ByteMachine
