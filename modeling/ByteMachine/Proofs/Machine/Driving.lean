/-
Three ways of driving a machine: by hand, by the clock, and in one bounded run.

By hand a step pauses an idle machine; the clock keeps the machine running until it is stopped; a bounded run starts it,
executes and stops it again. What a statement does never depends on the status, and the status after it depends on the
one before it only as long as the program is not completed. So the three ways differ in nothing but the status on the
way, and pausing takes that difference away.

Contents:
- `withStatus`: the machine with another status;
- `performTimes`: one operation over and over;
- `Page.ticks`: ticks of a page, with the answers;
- `Ready`, `Finished`: where driving begins;
- `DrivenAlike`: the three ways agree, and the page is told to stop in time.

Main statements:
- `step_withStatus`, `steps_withStatus`: steps hand the status on and are otherwise blind to it;
- `ticks_eq_steps`: up to the end of the program the ticks of a running machine are steps;
- `runToCompletion_add`: a bounded run can be interrupted before the end of the program;
- `manual_clock_and_run_agree`: from every ready machine and from every finished one the three ways agree.
-/
import Mathlib.Tactic
import ByteMachine.Page
import ByteMachine.Proofs.Machine.Fitting

namespace ByteMachine

/-! ## The status of a state -/

namespace State

def withStatus (s : State) (status : RunStatus) : State :=
  { s with status }

theorem execute_withStatus (n : ℕ) (op : MicroOp) (s : State) (status : RunStatus) :
    (s.withStatus status).execute n op = (s.execute n op).withStatus status := by
  cases op <;> rfl

theorem remark_withStatus (op : MicroOp) (s : State) (status : RunStatus) :
    (s.withStatus status).remark op = s.remark op := by
  cases op <;> rfl

theorem record_withStatus (s : State) (status : RunStatus) (entry : TraceEntry) (length : ℕ) :
    (s.withStatus status).record entry length =
      (s.record entry length).withStatus (statusAfter status (s.currentStep + 1) length) := rfl

theorem statusAfter_of_le (status : RunStatus) {next length : ℕ} (h : length ≤ next) :
    statusAfter status next length = .completed := by
  simp [statusAfter, h]

/-- before the end a running machine stays running, and any other is paused -/
theorem statusAfter_of_lt (status : RunStatus) {next length : ℕ} (h : next < length) :
    statusAfter status next length = if status = .running then .running else .paused := by
  cases status <;> simp [statusAfter, Nat.not_le.2 h]

theorem statusAfter_statusAfter (status : RunStatus) {next length : ℕ} (h : next < length) :
    statusAfter (statusAfter status next length) (next + 1) length = statusAfter status (next + 1) length := by
  rw [statusAfter_of_lt status h]
  rcases Nat.lt_or_ge (next + 1) length with hlt | hle
  · rw [statusAfter_of_lt _ hlt, statusAfter_of_lt _ hlt]
    split_ifs <;> simp_all
  · rw [statusAfter_of_le _ hle, statusAfter_of_le _ hle]

/-- pausing takes away the only difference that the status before made -/
theorem paused_withStatus_statusAfter (s : State) {status : RunStatus} (hs : status ≠ .running) (next length : ℕ) :
    (s.withStatus (statusAfter .running next length)).paused = s.withStatus (statusAfter status next length) := by
  rcases Nat.lt_or_ge next length with hlt | hle
  · rw [statusAfter_of_lt _ hlt, statusAfter_of_lt _ hlt, if_pos rfl, if_neg hs]
    rfl
  · rw [statusAfter_of_le _ hle, statusAfter_of_le _ hle]
    rfl

end State

namespace Machine

def withStatus (m : Machine) (status : RunStatus) : Machine :=
  { m with state := m.state.withStatus status }

/-- **A step hands the status on** and is otherwise blind to it. -/
theorem step_withStatus {m : Machine} (h : m.state.currentStep < m.program.length) (status : RunStatus) :
    (m.withStatus status).step.2 =
      m.step.2.withStatus (State.statusAfter status (m.state.currentStep + 1) m.program.length) := by
  rcases m.step_cases with ⟨hle, -⟩ | ⟨s, hs, -, hm⟩
  · exact absurd h (Nat.not_lt.2 hle)
  · have hw : (m.withStatus status).program.statement? (m.withStatus status).state.currentStep = some s := hs
    rw [hm, step, hw]
    simp only [withStatus, State.execute_withStatus, State.remark_withStatus]
    rw [State.record_withStatus, State.execute_currentStep]
    rfl

theorem status_step {m : Machine} (h : m.state.currentStep < m.program.length) :
    m.step.2.state.status = State.statusAfter m.state.status (m.state.currentStep + 1) m.program.length :=
  congrArg (fun d => d.state.status) (step_withStatus h m.state.status)

theorem currentStep_step {m : Machine} (h : m.state.currentStep < m.program.length) :
    m.step.2.state.currentStep = m.state.currentStep + 1 := by
  rcases m.step_cases with ⟨hle, -⟩ | ⟨s, -, -, hm⟩
  · exact absurd h (Nat.not_lt.2 hle)
  · simp [hm, State.record]

/-! ## Steps -/

/-- one operation over and over -/
def performTimes (m : Machine) (n : ℕ) (op : Op) : Machine :=
  m.performAll (List.replicate n op)

theorem performTimes_succ (m : Machine) (n : ℕ) (op : Op) :
    m.performTimes (n + 1) op = (m.perform op).2.performTimes n op := rfl

theorem performTimes_add (m : Machine) (n k : ℕ) (op : Op) :
    m.performTimes (n + k) op = (m.performTimes n op).performTimes k op := by
  rw [performTimes, List.replicate_add, performAll_append]
  rfl

@[simp] theorem program_steps (m : Machine) (n : ℕ) : (m.performTimes n .step).program = m.program := by
  induction n generalizing m with
  | zero => rfl
  | succ n ih => exact (ih _).trans m.step_program

theorem currentStep_steps {m : Machine} {n : ℕ} (h : m.state.currentStep + n ≤ m.program.length) :
    (m.performTimes n .step).state.currentStep = m.state.currentStep + n := by
  induction n generalizing m with
  | zero => rfl
  | succ n ih =>
    have hs : m.step.2.state.currentStep = m.state.currentStep + 1 := currentStep_step (by omega)
    have hn : m.step.2.state.currentStep + n ≤ m.step.2.program.length := by rw [hs, step_program]; omega
    show (m.step.2.performTimes n .step).state.currentStep = _
    rw [ih hn, hs]
    omega

/-- **Steps hand the status on**: after one or more of them, inside the program, it is what the last one makes of it. -/
theorem steps_withStatus {m : Machine} {n : ℕ} (h : m.state.currentStep + (n + 1) ≤ m.program.length)
    (status : RunStatus) :
    (m.withStatus status).performTimes (n + 1) .step =
      (m.performTimes (n + 1) .step).withStatus
        (State.statusAfter status (m.state.currentStep + (n + 1)) m.program.length) := by
  induction n with
  | zero => exact step_withStatus (by omega) status
  | succ n ih =>
    have hc : (m.performTimes (n + 1) .step).state.currentStep = m.state.currentStep + (n + 1) :=
      currentStep_steps (by omega)
    have hlt : (m.performTimes (n + 1) .step).state.currentStep < (m.performTimes (n + 1) .step).program.length := by
      rw [hc, program_steps]; omega
    rw [performTimes_add _ (n + 1) 1, ih (by omega), performTimes_add m (n + 1) 1]
    show (Machine.withStatus _ _).step.2 = (m.performTimes (n + 1) .step).step.2.withStatus _
    rw [step_withStatus hlt, hc, program_steps, State.statusAfter_statusAfter _ (by omega)]
    rfl

theorem status_steps {m : Machine} {n : ℕ} (h : m.state.currentStep + (n + 1) ≤ m.program.length) :
    (m.performTimes (n + 1) .step).state.status =
      State.statusAfter m.state.status (m.state.currentStep + (n + 1)) m.program.length :=
  congrArg (fun d => d.state.status) (steps_withStatus h m.state.status)

/-! ## Ticks -/

theorem tick_of_running {m : Machine} (h : m.state.status = .running) : m.tick = (some m.step.1, m.step.2) := by
  simp [tick, isRunning, h]

theorem tick_of_not_running {m : Machine} (h : m.state.status ≠ .running) : m.tick = (none, m) := by
  simp [tick, isRunning, h]

theorem ticks_of_not_running {m : Machine} (h : m.state.status ≠ .running) (n : ℕ) : m.performTimes n .tick = m := by
  induction n with
  | zero => rfl
  | succ n ih =>
    rw [performTimes_succ]
    show m.tick.2.performTimes n .tick = m
    rw [tick_of_not_running h, ih]

/-- a running machine is still running before the end of its program -/
theorem running_steps {m : Machine} (hr : m.state.status = .running) {n : ℕ}
    (h : m.state.currentStep + n < m.program.length) : (m.performTimes n .step).state.status = .running := by
  cases n with
  | zero => exact hr
  | succ n => rw [status_steps h.le, hr, State.statusAfter_of_lt _ h, if_pos rfl]

/-- **Up to the end of the program ticks are steps**, once the machine is running. -/
theorem ticks_eq_steps {m : Machine} (hr : m.state.status = .running) {n : ℕ}
    (h : m.state.currentStep + n ≤ m.program.length) : m.performTimes n .tick = m.performTimes n .step := by
  induction n with
  | zero => rfl
  | succ n ih =>
    rw [performTimes_add _ n 1, performTimes_add _ n 1, ih (by omega)]
    show (m.performTimes n .step).tick.2 = (m.performTimes n .step).step.2
    rw [tick_of_running (running_steps hr (by omega))]

/-- a bounded run is made of ticks -/
theorem runFor_eq_ticks (m : Machine) (limit : ℕ) : (m.runFor limit).2 = m.performTimes limit .tick := by
  induction limit generalizing m with
  | zero => rfl
  | succ limit ih =>
    by_cases hr : m.state.status = .running
    · rw [performTimes_succ]
      show _ = m.tick.2.performTimes limit .tick
      rw [tick_of_running hr, ← ih]
      simp [runFor, isRunning, hr]
    · rw [ticks_of_not_running hr]
      simp [runFor, isRunning, hr]

theorem runToCompletion_eq_ticks (m : Machine) {limit : ℕ} (h : 0 < limit) :
    (m.runToCompletion limit).2 = (m.run.performTimes limit .tick).pause := by
  rw [← runFor_eq_ticks]
  simp [runToCompletion, h.ne']

/-! ## Where driving begins -/

/-- stopped before a statement -/
structure Ready (m : Machine) : Prop where
  status : m.state.status = .idle ∨ m.state.status = .paused
  pointer : m.state.currentStep < m.program.length

/-- completed, behind the last statement -/
structure Finished (m : Machine) : Prop where
  status : m.state.status = .completed
  pointer : m.state.currentStep = m.program.length
  program : 0 < m.program.length

theorem Ready.run {m : Machine} (h : m.Ready) : m.run = m.withStatus .running := by
  have he : m.program.isEmpty = false := m.program.isEmpty_eq_false_iff.2 (Nat.zero_lt_of_lt h.pointer)
  have hc : m.state.status ≠ .completed := by
    rcases h.status with hs | hs <;> simp [hs]
  simp [Machine.run, isCompleted, he, hc, Nat.not_le.2 h.pointer, withStatus, State.withStatus]

/-- the step that goes back makes a finished machine ready again -/
theorem Finished.step {m : Machine} (h : m.Finished) :
    m.step.2.Ready ∧ m.step.2.state.currentStep = 0 ∧ m.step.2.run = m.run := by
  have he : m.program.isEmpty = false := m.program.isEmpty_eq_false_iff.2 h.program
  rcases m.step_cases with ⟨-, hs⟩ | ⟨s, -, hlt, -⟩
  · rw [hs]
    refine ⟨⟨.inl ?_, h.program⟩, rfl, ?_⟩
    · simp [State.restart, h.status]
    · simp [Machine.run, State.restart, isCompleted, he, h.status]
  · exact absurd h.pointer hlt.ne

/-! ## The three ways -/

/-- by the clock and by hand, the same statements make the same machine -/
theorem Ready.clock_eq_manual {m : Machine} (h : m.Ready) {k : ℕ} (hk : 0 < k)
    (hl : m.state.currentStep + k ≤ m.program.length) :
    (m.run.performTimes k .tick).pause = m.performTimes k .step := by
  obtain ⟨n, rfl⟩ := Nat.exists_eq_add_of_lt hk
  have hs : m.state.status ≠ .running := by
    rcases h.status with hs | hs <;> simp [hs]
  rw [Nat.zero_add] at hl ⊢
  calc (m.run.performTimes (n + 1) .tick).pause
      = ((m.withStatus .running).performTimes (n + 1) .step).pause := by
        rw [h.run, ticks_eq_steps (m := m.withStatus .running) rfl hl]
    _ = (m.withStatus m.state.status).performTimes (n + 1) .step := by
        rw [steps_withStatus hl, steps_withStatus hl, pause_eq]
        simp only [withStatus]
        rw [State.paused_withStatus_statusAfter _ hs]
    _ = m.performTimes (n + 1) .step := rfl

/-- inside the program a bounded run is as many steps by hand -/
theorem Ready.runToCompletion_eq_steps {m : Machine} (h : m.Ready) {k : ℕ}
    (hl : m.state.currentStep + k ≤ m.program.length) : (m.runToCompletion k).2 = m.performTimes k .step := by
  rcases Nat.eq_zero_or_pos k with rfl | hk
  · rfl
  · rw [runToCompletion_eq_ticks m hk, h.clock_eq_manual hk hl]

/-- before its last statement a machine that is driven by hand stays ready -/
theorem Ready.steps {m : Machine} (h : m.Ready) {k : ℕ} (hl : m.state.currentStep + k < m.program.length) :
    (m.performTimes k .step).Ready := by
  refine ⟨?_, by rwa [currentStep_steps hl.le, program_steps]⟩
  cases k with
  | zero => exact h.status
  | succ n =>
    rw [status_steps hl.le, State.statusAfter_of_lt _ hl]
    rcases h.status with hs | hs <;> simp [hs]

/-- the program is completed when its last statement has been executed -/
theorem completed_ticks {m : Machine} (hr : m.state.status = .running) (h : m.state.currentStep < m.program.length) :
    (m.performTimes (m.program.length - m.state.currentStep) .tick).state.status = .completed := by
  obtain ⟨n, hn⟩ := Nat.exists_eq_add_of_lt h
  have hk : m.program.length - m.state.currentStep = n + 1 := by omega
  have hl : m.state.currentStep + (n + 1) = m.program.length := by omega
  rw [hk, ticks_eq_steps hr hl.le, status_steps hl.le, State.statusAfter_of_le _ hl.ge]

/-- what is more than the rest of the program makes no difference to a bounded run -/
theorem Ready.runToCompletion_of_le {m : Machine} (h : m.Ready) {n : ℕ}
    (hn : m.program.length - m.state.currentStep ≤ n) :
    (m.runToCompletion n).2 = m.run.performTimes (m.program.length - m.state.currentStep) .tick := by
  have hp := h.pointer
  have hc : (m.run.performTimes (m.program.length - m.state.currentStep) .tick).state.status = .completed := by
    rw [h.run]
    exact completed_ticks (m := m.withStatus .running) rfl hp
  have hr := hc.trans_ne (show RunStatus.completed ≠ .running by decide)
  obtain ⟨e, rfl⟩ := Nat.exists_eq_add_of_le hn
  rw [runToCompletion_eq_ticks m (by omega), performTimes_add, ticks_of_not_running hr]
  simp [pause, isRunning, hc]

/-- starting again undoes a pause -/
theorem run_pause {m : Machine} (hr : m.state.status = .running) (h : m.state.currentStep < m.program.length) :
    m.pause.run = m := by
  have hp : m.pause = m.withStatus .paused := by
    simp [pause, isRunning, hr, withStatus, State.withStatus]
  have hready : (m.withStatus .paused).Ready := ⟨.inr rfl, h⟩
  rw [hp, hready.run]
  show m.withStatus .running = m
  rw [← hr]
  rfl

/-- **A bounded run can be interrupted** before the end of the program and taken up again. -/
theorem Ready.runToCompletion_add {m : Machine} (h : m.Ready) {a : ℕ} (b : ℕ)
    (ha : m.state.currentStep + a < m.program.length) :
    ((m.runToCompletion a).2.runToCompletion b).2 = (m.runToCompletion (a + b)).2 := by
  rcases Nat.eq_zero_or_pos a with rfl | ha'
  · rw [Nat.zero_add, runToCompletion_zero]
  rcases Nat.eq_zero_or_pos b with rfl | hb
  · rfl
  -- the machine in the middle: running, and before a statement
  have hmid : m.run.performTimes a .tick = (m.withStatus .running).performTimes a .step := by
    rw [h.run, ticks_eq_steps (m := m.withStatus .running) rfl ha.le]
  have hr : (m.run.performTimes a .tick).state.status = .running := by
    rw [hmid]
    exact running_steps rfl ha
  have hlt : (m.run.performTimes a .tick).state.currentStep < (m.run.performTimes a .tick).program.length := by
    rw [hmid, currentStep_steps (m := m.withStatus .running) ha.le, program_steps]
    exact ha
  rw [runToCompletion_eq_ticks _ hb, runToCompletion_eq_ticks _ ha', runToCompletion_eq_ticks _ (by omega),
    run_pause hr hlt, performTimes_add]

end Machine

/-! ## Pages -/

namespace Page

/-- `n` ticks, with the answer to each: is the machine still running? -/
def ticks : ℕ → Machine → List Bool × Machine
  | 0, m => ([], m)
  | n + 1, m =>
    let (answer, m) := tick m
    let (answers, m) := ticks n m
    (answer :: answers, m)

theorem ticks_snd (n : ℕ) (m : Machine) : (ticks n m).2 = m.performTimes n .tick := by
  induction n generalizing m with
  | zero => rfl
  | succ n ih => exact ih _

/-- the first answer that tells a page to stop comes with the last statement -/
theorem ticks_fst {m : Machine} (hr : m.state.status = .running) {n : ℕ}
    (h : m.state.currentStep + (n + 1) = m.program.length) :
    (ticks (n + 1) m).1 = List.replicate n true ++ [false] := by
  induction n generalizing m with
  | zero =>
    have hs := m.status_step (by omega)
    rw [State.statusAfter_of_le _ h.ge] at hs
    simp [ticks, tick, Machine.tick_of_running hr, Machine.isRunning, hs]
  | succ n ih =>
    have hlt : m.state.currentStep < m.program.length := by omega
    have hs := Machine.status_step hlt
    rw [hr, State.statusAfter_of_lt _ (by omega), if_pos rfl] at hs
    have hn : m.step.2.state.currentStep + (n + 1) = m.step.2.program.length := by
      rw [Machine.currentStep_step hlt, Machine.step_program]
      omega
    have ht := ih hs hn
    rw [ticks, List.replicate_succ, List.cons_append, ← ht]
    simp [tick, Machine.tick_of_running hr, Machine.isRunning, hs]

end Page

namespace Machine

/-! ## Driving alike -/

/-- With `left` statements left, and after what is done `first` by hand, the three ways agree. -/
structure DrivenAlike (m : Machine) (first : List Op) (left : ℕ) : Prop where
  /-- as many steps by hand -/
  manual : ∀ k, 1 ≤ k → k ≤ left → (m.performAll first).performTimes k .step = (m.runToCompletion k).2
  /-- as many ticks of a machine that was started and is then paused -/
  clock : ∀ k, 1 ≤ k → k ≤ left → (m.run.performTimes k .tick).pause = (m.runToCompletion k).2
  /-- a page that ticks until it is told that the machine has stopped makes one tick for each statement -/
  answers : (Page.ticks left m.run).1 = List.replicate (left - 1) true ++ [false]
  /-- and has then what a run with enough steps makes -/
  page : ∀ n, left ≤ n → (Page.ticks left m.run).2 = (m.runToCompletion n).2

theorem Ready.drivenAlike {m : Machine} (h : m.Ready) :
    DrivenAlike m [] (m.program.length - m.state.currentStep) := by
  have hp := h.pointer
  have clock : ∀ k, 1 ≤ k → k ≤ m.program.length - m.state.currentStep →
      (m.run.performTimes k .tick).pause = (m.runToCompletion k).2 :=
    fun k hk _ => (m.runToCompletion_eq_ticks hk).symm
  refine ⟨fun k _ hl => ?_, clock, ?_, fun n hn => ?_⟩
  · rw [h.runToCompletion_eq_steps (by omega)]
    rfl
  · obtain ⟨n, hn⟩ := Nat.exists_eq_add_of_lt hp
    have hk : m.program.length - m.state.currentStep = n + 1 := by omega
    rw [hk, h.run, Nat.add_sub_cancel]
    exact Page.ticks_fst (m := m.withStatus .running) rfl (by show m.state.currentStep + _ = m.program.length; omega)
  · rw [Page.ticks_snd, h.runToCompletion_of_le hn]

theorem Finished.drivenAlike {m : Machine} (h : m.Finished) : DrivenAlike m [.step] m.program.length := by
  obtain ⟨hready, hc, hrun⟩ := h.step
  have hd := hready.drivenAlike
  rw [step_program, hc, Nat.sub_zero] at hd
  have hto : ∀ n, 0 < n → (m.step.2.runToCompletion n).2 = (m.runToCompletion n).2 := fun n hn => by
    rw [runToCompletion_eq_ticks _ hn, runToCompletion_eq_ticks _ hn, hrun]
  refine ⟨fun k hk hl => ?_, fun k hk hl => ?_, ?_, fun n hn => ?_⟩
  · rw [← hto k hk, ← hd.manual k hk hl]
    rfl
  · rw [← hto k hk, ← hd.clock k hk hl, hrun]
  · rw [← hrun, hd.answers]
  · rw [← hto n (h.program.trans_le hn), ← hd.page n hn, hrun]

/-- **The three ways of driving agree.** Take any machine that is idle or paused before a statement. As long as the
program is not completed, so many steps by hand, so many ticks of the started machine with a pause after them, and a run
with this bound make the same machine. A page that starts it and ticks until it is told that it has stopped makes one
tick for each statement that is left, and has then what every run with at least this bound makes. From a completed
machine behind its last statement the same holds for the whole program, if the way by hand begins with the step that
goes back. -/
theorem manual_clock_and_run_agree (m : Machine) :
    (m.Ready → DrivenAlike m [] (m.program.length - m.state.currentStep)) ∧
      (m.Finished → DrivenAlike m [.step] m.program.length) :=
  ⟨Ready.drivenAlike, Finished.drivenAlike⟩

/-- a machine that has executed two of five statements -/
def halfway : Machine :=
  (fresh small).performAll [.loadPreset "load-store", .step, .step]

/-- the same machine after the others -/
def atEnd : Machine :=
  (halfway.runToCompletion 9).2

theorem manual_clock_and_run_agree_halfway :
    (halfway.Ready ∧ DrivenAlike halfway [] 3) ∧ atEnd.Finished ∧ DrivenAlike atEnd [.step] 5 := by
  have hready : halfway.Ready := ⟨.inr (by decide), by decide⟩
  have hfinished : atEnd.Finished := ⟨by decide, by decide, by decide⟩
  exact ⟨⟨hready, (manual_clock_and_run_agree halfway).1 hready⟩, hfinished,
    (manual_clock_and_run_agree atEnd).2 hfinished⟩

end Machine

end ByteMachine
