/-
Which snapshots fit a configuration.

`Snapshot.check` goes through four conditions and stops at the first that fails; `Snapshot.Fits` is the four of them
together, and `Snapshot.FirstFault` is the first that fails, with the error that names it. A machine restores exactly the
snapshots that fit its configuration.

Main statements: `check_eq_ok_iff`, `check_eq_error_iff` and `Machine.restore_eq_ok_iff`.
-/
import Mathlib.Tactic
import ByteMachine.Snapshot

namespace ByteMachine

namespace Snapshot

/-- the sizes are the configuration's, and pointer and trace stay inside the program -/
structure Fits (s : Snapshot) (c : Config) : Prop where
  memory : s.state.memory.size = c.memorySize
  registers : s.state.registers.count = c.registerCount
  pointer : s.state.currentStep ≤ s.program.length
  trace : ∀ e ∈ s.state.trace, e.step < s.program.length

theorem check_eq_ok_iff (s : Snapshot) (c : Config) : s.check c = .ok () ↔ s.Fits c := by
  unfold check
  constructor
  · intro h
    dsimp only at h
    split_ifs at h with h1 h2 h3
    split at h
    · cases h
    · next ht =>
      refine ⟨not_not.1 h1, not_not.1 h2, Nat.not_lt.1 h3, fun e he => ?_⟩
      simpa using List.find?_eq_none.1 ht e he
  · rintro ⟨h1, h2, h3, h4⟩
    have ht : s.state.trace.find? (fun e => s.program.length ≤ e.step) = none := by
      rw [List.find?_eq_none]
      intro e he; simpa using h4 e he
    simp [h1, h2, Nat.not_lt.2 h3, ht]

/-- the first of the four conditions that fails, with the error that names it; in the trace, the first bad entry -/
inductive FirstFault (s : Snapshot) (c : Config) : SnapshotError → Prop
  | memory (h : s.state.memory.size ≠ c.memorySize) :
      FirstFault s c (.memorySize c.memorySize s.state.memory.size)
  | registers (hm : s.state.memory.size = c.memorySize) (h : s.state.registers.count ≠ c.registerCount) :
      FirstFault s c (.registerCount c.registerCount s.state.registers.count)
  | pointer (hm : s.state.memory.size = c.memorySize) (hr : s.state.registers.count = c.registerCount)
      (h : s.program.length < s.state.currentStep) :
      FirstFault s c (.stepOutOfRange s.state.currentStep s.program.length)
  | trace {before after : List TraceEntry} {e : TraceEntry} (hm : s.state.memory.size = c.memorySize)
      (hr : s.state.registers.count = c.registerCount) (hp : s.state.currentStep ≤ s.program.length)
      (ht : s.state.trace = before ++ e :: after) (hb : ∀ earlier ∈ before, earlier.step < s.program.length)
      (h : s.program.length ≤ e.step) :
      FirstFault s c (.stepOutOfRange e.step s.program.length)

/-- a check that fails names the first fault -/
theorem check_eq_error_iff (s : Snapshot) (c : Config) (e : SnapshotError) :
    s.check c = .error e ↔ s.FirstFault c e := by
  constructor
  · intro h
    unfold check at h
    dsimp only at h
    split_ifs at h with h1 h2 h3
    · cases h
      exact .memory h1
    · cases h
      exact .registers (not_not.1 h1) h2
    · cases h
      exact .pointer (not_not.1 h1) (not_not.1 h2) h3
    · split at h
      · next bad hf =>
        cases h
        obtain ⟨hbad, before, after, ht, hb⟩ := List.find?_eq_some_iff_append.1 hf
        refine .trace (not_not.1 h1) (not_not.1 h2) (Nat.not_lt.1 h3) ht (fun x hx => ?_) (by simpa using hbad)
        simpa using hb x hx
      · cases h
  · intro h
    cases h with
    | memory h => simp [check, h]
    | registers hm h => simp [check, hm, h]
    | pointer hm hr h => simp [check, hm, hr, h]
    | @trace before after bad hm hr hp ht hb h =>
      have hf : s.state.trace.find? (fun x => s.program.length ≤ x.step) = some bad := by
        refine List.find?_eq_some_iff_append.2 ⟨by simpa using h, before, after, ht, fun x hx => ?_⟩
        simpa using hb x hx
      simp [check, hm, hr, Nat.not_lt.2 hp, hf]

end Snapshot

/-! ## Restoring -/

namespace State

@[simp] theorem paused_registers (s : State) : s.paused.registers = s.registers := by
  unfold paused; split_ifs <;> rfl

@[simp] theorem paused_memory (s : State) : s.paused.memory = s.memory := by
  unfold paused; split_ifs <;> rfl

@[simp] theorem paused_flags (s : State) : s.paused.flags = s.flags := by
  unfold paused; split_ifs <;> rfl

@[simp] theorem paused_currentStep (s : State) : s.paused.currentStep = s.currentStep := by
  unfold paused; split_ifs <;> rfl

@[simp] theorem paused_trace (s : State) : s.paused.trace = s.trace := by
  unfold paused; split_ifs <;> rfl

theorem paused_status (s : State) :
    s.paused.status = if s.status = .running then .paused else s.status := by
  unfold paused; split_ifs <;> rfl

theorem paused_status_ne_running (s : State) : s.paused.status ≠ .running := by
  unfold paused
  split_ifs with h
  · exact RunStatus.noConfusion
  · exact h

/-- pausing completes nothing and undoes no completion -/
@[simp] theorem paused_status_eq_completed (s : State) : s.paused.status = .completed ↔ s.status = .completed := by
  unfold paused
  split_ifs with h
  · simp [h]
  · exact Iff.rfl

end State

namespace Snapshot.Fits

variable {s : Snapshot} {c d : Config}

theorem paused (h : s.Fits c) : Snapshot.Fits { s with state := s.state.paused } c where
  memory := by simpa using h.memory
  registers := by simpa using h.registers
  pointer := by simpa using h.pointer
  trace := by simpa using h.trace

/-- the sizes are all that counts at the beginning of a program -/
theorem of_beginning (hm : s.state.memory.size = c.memorySize) (hr : s.state.registers.count = c.registerCount)
    (hc : s.state.currentStep = 0) (ht : s.state.trace = []) : s.Fits c where
  memory := hm
  registers := hr
  pointer := hc.trans_le (Nat.zero_le _)
  trace e he := by
    rw [ht] at he
    cases he

/-- a check reads only the two sizes of a configuration -/
theorem of_sizes (h : s.Fits c) (hm : d.memorySize = c.memorySize) (hr : d.registerCount = c.registerCount) :
    s.Fits d :=
  { h with memory := h.memory.trans hm.symm, registers := h.registers.trans hr.symm }

end Snapshot.Fits

namespace Machine

theorem pause_eq (m : Machine) : m.pause = { m with state := m.state.paused } := by
  unfold pause isRunning State.paused
  by_cases h : m.state.status = .running
  · simp [h]
  · simp [h]

/-- the machine that a snapshot makes of this one -/
def restored (m : Machine) (s : Snapshot) : Machine :=
  { m with program := s.program, state := s.state.paused, preset := s.preset }

/-- a machine restores exactly the snapshots that fit its configuration -/
theorem restore_eq_ok_iff (m m' : Machine) (s : Snapshot) :
    m.restore s = .ok m' ↔ s.Fits m.config ∧ m' = m.restored s := by
  rw [← s.check_eq_ok_iff m.config]
  unfold restore
  cases s.check m.config with
  | error e => simp
  | ok u => simp [restored, eq_comm]

/-- otherwise it says which condition fails first -/
theorem restore_eq_error_iff (m : Machine) (s : Snapshot) (e : SnapshotError) :
    m.restore s = .error e ↔ s.FirstFault m.config e := by
  rw [← s.check_eq_error_iff m.config]
  unfold restore
  cases s.check m.config with
  | error e => simp
  | ok u => simp

end Machine

end ByteMachine
