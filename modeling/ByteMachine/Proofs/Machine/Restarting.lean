/-
Going back to the first statement: when a machine does it, and what is left then.

A running machine is always before a statement. What makes it run puts the pointer inside the program, the statement
that takes it out of the program completes it, and what replaces the program, or brings a pointer from elsewhere, stops
it. So a tick executes, and so does every step of a bounded run. Only a step by hand finds the pointer at the end and
goes back.

Such a step touches pointer and status alone. A completed machine is idle after it, and an idle one stays idle. A
snapshot may claim to be paused behind its last statement, though; a machine restored from it goes back and stays paused.
Machines without foreign snapshots are completed whenever their pointer is at the end of a program.

Contents:
- `RunsInside`: a running machine is before a statement;
- `Loop`: the steps of a bounded run, with what each did;
- `Loop.runFor_eq`, `RunsInside.exists_loop`: the loop ends, and a bounded run is what it makes.

Main statements:
- `tick_never_restarts`: ticks and bounded runs execute, they never go back;
- `stays_paused_at_end`: a restarted machine need not be idle;
- `step_goes_back`: what a restarting step leaves.
-/
import Mathlib.Tactic
import ByteMachine.Proofs.Machine.Driving
import ByteMachine.Proofs.Machine.History

namespace ByteMachine

namespace State

/-- of the machines that stand still, only a paused one is not idle at the first statement -/
theorem restart_status {s : State} (h : s.status ≠ .running) :
    s.restart.status = if s.status = .paused then .paused else .idle := by
  unfold restart
  cases hs : s.status with
  | running => exact absurd hs h
  | idle | paused | completed => rfl

end State

namespace Machine

/-! ## Running machines -/

/-- a running machine is before a statement -/
def RunsInside (m : Machine) : Prop :=
  m.state.status = .running → m.state.currentStep < m.program.length

theorem runsInside_of_status {m : Machine} (h : m.state.status ≠ .running) : RunsInside m :=
  fun hr => absurd hr h

namespace RunsInside

variable {m : Machine}

theorem step (h : RunsInside m) : RunsInside m.step.2 := by
  rcases m.step_cases with ⟨hle, hs⟩ | ⟨s, -, hlt, -⟩
  · have hn : m.state.status ≠ .running := fun hr => absurd (h hr) (Nat.not_lt.2 hle)
    rw [hs]
    refine runsInside_of_status (m := { m with state := m.state.restart }) ?_
    rw [State.restart_status hn]
    split_ifs <;> exact RunStatus.noConfusion
  · intro hr
    rw [status_step hlt] at hr
    rw [currentStep_step hlt, step_program]
    -- at the end the statement would have completed the program
    by_contra hle
    rw [State.statusAfter_of_le _ (Nat.not_lt.1 hle)] at hr
    cases hr

theorem run (h : RunsInside m) : RunsInside m.run := by
  unfold Machine.run
  split_ifs with he
  · exact h
  · have hL : 0 < m.program.length := m.program.isEmpty_eq_false_iff.1 (by simpa using he)
    intro _
    show (if _ then 0 else m.state.currentStep) < m.program.length
    split_ifs with hend
    · exact hL
    · simp only [Bool.or_eq_true, decide_eq_true_eq, not_or, not_le] at hend
      exact hend.2

theorem exists_executed (h : RunsInside m) (hr : m.state.status = .running) : ∃ e, m.step.1 = .executed e := by
  rcases m.step_cases with ⟨hle, -⟩ | ⟨s, -, -, hs⟩
  · exact absurd (h hr) (Nat.not_lt.2 hle)
  · exact ⟨_, congrArg Prod.fst hs⟩

end RunsInside

/-- every change keeps running machines before a statement, and any snapshot may be offered -/
theorem runsInside_kept : Kept (fun _ => True) RunsInside where
  load _ _ hl _ := by
    obtain ⟨-, rfl⟩ := (load_eq_ok_iff ..).1 hl
    exact runsInside_of_status RunStatus.noConfusion
  loadPreset _ hl _ := by
    obtain ⟨p, -, rfl⟩ := (loadPreset_eq_ok_iff ..).1 hl
    exact runsInside_of_status RunStatus.noConfusion
  step := RunsInside.step
  run := RunsInside.run
  pause {m} _ := by
    rw [m.pause_eq]
    exact runsInside_of_status m.state.paused_status_ne_running
  reset _ _ := runsInside_of_status RunStatus.noConfusion
  setRegister _ _ h := h
  writeMemory _ _ h := h
  assign _ h := h
  restore {_ _ s} _ hr _ := by
    obtain ⟨-, rfl⟩ := (restore_eq_ok_iff ..).1 hr
    exact runsInside_of_status s.state.paused_status_ne_running
  text _ _ := trivial

theorem runsInside_performAll {c : Config} {start : Machine} (h : withConfig c = .ok start) (ops : List Op) :
    RunsInside (start.performAll ops) := by
  obtain ⟨-, rfl⟩ := (withConfig_eq_ok_iff c start).1 h
  exact runsInside_kept.performAll (fun _ _ => trivial) (runsInside_of_status RunStatus.noConfusion)

/-! ## The loop of a bounded run -/

/-- the steps of a bounded run, with what each did: while the machine is running and statements are left to execute, it
steps again. Only an executed statement uses up what is left -/
inductive Loop : ℕ → Machine → List StepOutcome → Machine → Prop
  | stopped {left : ℕ} {m : Machine} (h : m.state.status ≠ .running) : Loop left m [] m
  | exhausted {m : Machine} : Loop 0 m [] m
  | again {left : ℕ} {m m' : Machine} {outcomes : List StepOutcome} (hr : m.state.status = .running) (hl : 0 < left)
      (rest : Loop (left - m.step.1.count) m.step.2 outcomes m') : Loop left m (m.step.1 :: outcomes) m'

/-- **Every step of the loop executes**, and a bounded run is what the loop makes. -/
theorem Loop.runFor_eq {left : ℕ} {m m' : Machine} {outcomes : List StepOutcome} (hl : Loop left m outcomes m')
    (h : RunsInside m) : .restarted ∉ outcomes ∧ m.runFor left = (outcomes.length, m') := by
  induction hl with
  | @stopped left m hn =>
    refine ⟨List.not_mem_nil, ?_⟩
    cases left with
    | zero => rfl
    | succ left => simp [runFor, isRunning, hn]
  | exhausted => exact ⟨List.not_mem_nil, rfl⟩
  | @again left m m' outcomes hr hl rest ih =>
    obtain ⟨e, he⟩ := h.exists_executed hr
    obtain ⟨left, rfl⟩ := Nat.exists_eq_succ_of_ne_zero hl.ne'
    rw [he] at ih
    obtain ⟨hmem, heq⟩ := ih h.step
    refine ⟨?_, ?_⟩
    · rw [he]
      simpa using hmem
    · have hc : m.runFor (left + 1) = (m.step.1.count + (m.step.2.runFor left).1, (m.step.2.runFor left).2) := by
        simp [runFor, isRunning, hr]
      rw [Nat.succ_eq_add_one, hc, he, show m.step.2.runFor left = _ from heq]
      simp [StepOutcome.count, Nat.add_comm]

/-- the loop ends -/
theorem RunsInside.exists_loop {m : Machine} (h : RunsInside m) (left : ℕ) :
    ∃ outcomes m', Loop left m outcomes m' := by
  induction left generalizing m with
  | zero => exact ⟨[], m, .exhausted⟩
  | succ left ih =>
    by_cases hr : m.state.status = .running
    · obtain ⟨e, he⟩ := h.exists_executed hr
      obtain ⟨outcomes, m', hl⟩ := ih h.step
      refine ⟨m.step.1 :: outcomes, m', .again hr (Nat.succ_pos left) ?_⟩
      rw [he]
      exact hl
    · exact ⟨[], m, .stopped hr⟩

/-- **A tick never goes back to the first statement.** Let a machine with a valid configuration be driven by any
operations, imports of arbitrary snapshots among them. If it is running, it has a program and is before one of its
statements. A tick answers nothing exactly when the machine is not running; otherwise it executes the statement at the
pointer and records it, and nothing else. The loop of a bounded run ends, none of its steps goes back, and the run tells
how many there were. -/
theorem tick_never_restarts (c : Config) (start : Machine) (h : withConfig c = .ok start) (ops : List Op) :
    let m := start.performAll ops
    (m.state.status = .running → 0 < m.program.length ∧ m.state.currentStep < m.program.length) ∧
    (m.tick.1 = none ↔ m.state.status ≠ .running) ∧
    (m.state.status = .running → ∃ s, m.program.statement? m.state.currentStep = some s ∧
      let after := m.state.execute m.config.memorySize s.op
      let entry := ⟨m.state.currentStep, s.source, after.remark s.op⟩
      m.tick = (some (.executed entry), { m with state := after.record entry m.program.length }) ∧
        m.tick.2.state.trace = m.state.trace ++ [entry]) ∧
    m.tick.1 ≠ some .restarted ∧
    (∀ limit outcomes m', Loop limit m.run outcomes m' →
      .restarted ∉ outcomes ∧ (0 < limit → m.runToCompletion limit = (outcomes.length, m'.pause))) ∧
    ∀ limit, ∃ outcomes m', Loop limit m.run outcomes m' := by
  intro m
  have hm : RunsInside m := runsInside_performAll h ops
  refine ⟨fun hr => ⟨Nat.zero_lt_of_lt (hm hr), hm hr⟩, ?_, fun hr => ?_, fun hback => ?_,
    fun limit outcomes m' hl => ?_, hm.run.exists_loop⟩
  · constructor
    · intro hnone hr
      rw [tick_of_running hr] at hnone
      cases hnone
    · intro hn
      rw [tick_of_not_running hn]
  · obtain ⟨e, he⟩ := hm.exists_executed hr
    obtain ⟨s, hs, rfl, hnext⟩ := of_step_executed he
    refine ⟨s, hs, ?_⟩
    rw [tick_of_running hr, he, hnext]
    exact ⟨rfl, by simp only [State.record, State.execute_trace]⟩
  · by_cases hr : m.state.status = .running
    · obtain ⟨e, he⟩ := hm.exists_executed hr
      rw [tick_of_running hr, he] at hback
      cases hback
    · rw [tick_of_not_running hr] at hback
      cases hback
  · obtain ⟨hmem, heq⟩ := hl.runFor_eq hm.run
    refine ⟨hmem, fun hpos => ?_⟩
    simp only [runToCompletion, hpos.ne', if_false, heq]

/-- a program is replaced while it runs, a snapshot that was saved running at its end is restored and started, and a
step by hand comes between -/
def restless : List Op :=
  let saved : Snapshot := ⟨.ofTexts ["IR ← MDR", "?"],
    { State.initial small with currentStep := 2, status := .running }, none⟩
  [.load ["A ← R[0]", "PC ← PC + 1"], .run, .tick, .load ["MAR ← PC", "IR ← MDR"], .run, .restore saved, .toggle, .step]

theorem tick_never_restarts_restless :
    withConfig small = .ok (fresh small) ∧
    let m := (fresh small).performAll restless
    m.state.status = .running ∧ m.state.currentStep = 1 ∧ m.program.length = 2 ∧
    (∃ e : TraceEntry, m.tick.1 = some (.executed e) ∧ m.tick.2.state.trace = m.state.trace ++ [e]) ∧
    m.tick.1 ≠ some .restarted ∧ m.tick.2.tick.1 = none ∧
    ∃ outcomes m', Loop 9 m.run outcomes m' ∧ .restarted ∉ outcomes ∧
      m.runToCompletion 9 = (outcomes.length, m'.pause) := by
  have h : withConfig small = .ok (fresh small) := rfl
  refine ⟨h, ?_⟩
  intro m
  have hr : m.state.status = .running := by decide
  obtain ⟨-, -, hticks, hback, hloop, hends⟩ := tick_never_restarts small (fresh small) h restless
  obtain ⟨s, -, htick, htrace⟩ := hticks hr
  obtain ⟨-, hnone, -⟩ := tick_never_restarts small (fresh small) h (restless ++ [.tick])
  obtain ⟨outcomes, m', hl⟩ := hends 9
  have hstopped : m.tick.2.state.status ≠ .running := by decide
  refine ⟨hr, by decide, by decide, ⟨_, congrArg Prod.fst htick, htrace⟩, hback, ?_, outcomes, m', hl,
    (hloop 9 outcomes m' hl).1, (hloop 9 outcomes m' hl).2 (by decide)⟩
  rw [performAll_append] at hnone
  exact hnone.2 hstopped

/-! ## Restarting steps -/

/-- a machine without a program is idle, if what is imported comes from such machines -/
theorem idle_kept :
    Kept (Allowed (fun _ => True) fun m => m.program.length = 0 → m.state.status = .idle)
      (fun m => m.program.length = 0 → m.state.status = .idle) where
  load _ _ hl _ := by
    obtain ⟨-, rfl⟩ := (load_eq_ok_iff ..).1 hl
    exact fun _ => rfl
  loadPreset _ hl _ := by
    obtain ⟨p, -, rfl⟩ := (loadPreset_eq_ok_iff ..).1 hl
    exact fun _ => rfl
  step {m} h hL := by
    rw [step_program] at hL
    rcases m.step_cases with ⟨-, hs⟩ | ⟨s, -, hlt, -⟩
    · rw [hs]
      simp [State.restart, h hL]
    · omega
  run {m} h hL := by
    rw [run_program] at hL
    have he : m.program.isEmpty = true := by
      by_contra he
      exact hL.not_gt (m.program.isEmpty_eq_false_iff.1 (by simpa using he))
    simp [Machine.run, he, h hL]
  pause {m} h hL := by
    rw [m.pause_eq] at hL ⊢
    simp [State.paused, h hL]
  reset _ _ _ := rfl
  setRegister _ _ h := h
  writeMemory _ _ h := h
  assign _ h := h
  restore ha hr _ := by
    obtain ⟨other, ho, rfl⟩ := ha
    obtain ⟨-, rfl⟩ := (restore_eq_ok_iff ..).1 hr
    exact fun hL => by simp [restored, snapshot, State.paused, ho hL]
  text := allowed_restore_of_text

/-- without foreign snapshots a machine at the end of its program is completed, and without a program idle -/
theorem Homegrown.status_at_end {m : Machine} (hm : Homegrown (fun _ => True) m)
    (h : m.program.length ≤ m.state.currentStep) : m.state.status = .idle ∨ m.state.status = .completed := by
  rcases Nat.eq_zero_or_pos m.program.length with hL | hL
  · exact .inl (hm.keeps (fun _ _ => rfl) idle_kept hL)
  · have hlaw : History m := hm.keeps (fun _ hL => absurd hL (lt_irrefl 0)) history_kept hL
    right
    by_contra hc
    exact absurd ((hlaw.currentStep_lt_iff hL).2 hc) (Nat.not_lt.2 h)

/-- a snapshot that claims to be paused behind its only statement -/
def pausedAtEnd : Snapshot :=
  ⟨.ofTexts ["PC ← PC + 1"], { State.initial small with currentStep := 1, status := .paused }, none⟩

/-- **A restarted machine need not be idle**: one that was restored from a snapshot paused at its end stays paused. -/
theorem stays_paused_at_end :
    ¬ ∀ (c : Config) (start : Machine), withConfig c = .ok start → ∀ ops : List Op,
      let m := start.performAll ops
      m.step.1 = .restarted → m.step.2 = { m with state := { m.state with currentStep := 0, status := .idle } } := by
  intro h
  have hback := h small (fresh small) rfl [.restore pausedAtEnd] (by decide)
  have hidle : ((fresh small).performAll [.restore pausedAtEnd]).step.2.state.status = .idle :=
    congrArg (fun m => m.state.status) hback
  exact absurd hidle (by decide)

/-- **What a restarting step leaves.** After any operations on a machine with a valid configuration, arbitrary snapshots
among them, a step that goes back puts the pointer at the first statement and makes the machine idle, unless it was
paused, and then it stays paused. Nothing else changes. Without foreign snapshots the machine is always idle then. -/
theorem step_goes_back :
    (∀ (c : Config) (start : Machine), withConfig c = .ok start → ∀ ops : List Op,
      let m := start.performAll ops
      m.step.1 = .restarted →
        m.step.2 = { m with
          state := { m.state with
            currentStep := 0
            status := if m.state.status = .paused then .paused else .idle } }) ∧
    ∀ m : Machine, Homegrown (fun _ => True) m → m.step.1 = .restarted →
      m.step.2 = { m with state := { m.state with currentStep := 0, status := .idle } } := by
  constructor
  · intro c start h ops m hback
    obtain ⟨hle, hs⟩ := of_step_restarted hback
    have hn : m.state.status ≠ .running := fun hr => absurd (runsInside_performAll h ops hr) (Nat.not_lt.2 hle)
    rw [hs, ← State.restart_status hn]
    rfl
  · intro m hm hback
    obtain ⟨hle, hs⟩ := of_step_restarted hback
    have hidle : m.state.restart.status = .idle := by
      rcases hm.status_at_end hle with hst | hst <;> simp [State.restart, hst]
    rw [hs, ← hidle]
    rfl

theorem step_goes_back_paused_and_completed :
    (withConfig small = .ok (fresh small) ∧
      let m := (fresh small).performAll [.restore pausedAtEnd]
      m.step.1 = .restarted ∧ m.step.2.state.currentStep = 0 ∧ m.step.2.state.status = .paused ∧
        m.step.2.program = m.program ∧ m.step.2.state.memory = m.state.memory) ∧
    let m := (fresh small).performAll [.load ["PC ← PC + 1"], .step]
    Homegrown (fun _ => True) m ∧ m.step.1 = .restarted ∧ m.step.2.state.status = .idle ∧
      m.step.2.state.trace = m.state.trace ∧ m.state.trace.length = 1 := by
  have h : withConfig small = .ok (fresh small) := rfl
  have hback : ((fresh small).performAll [.restore pausedAtEnd]).step.1 = .restarted := by decide
  have hpaused := step_goes_back.1 small (fresh small) h [.restore pausedAtEnd] hback
  constructor
  · refine ⟨h, hback, ?_⟩
    rw [hpaused]
    exact ⟨rfl, by decide, rfl, rfl⟩
  · intro m
    have hm : Homegrown (fun _ => True) m := (Homegrown.start h).performAll (by simp [Op.snapshot?])
    have hdone : m.step.1 = .restarted := by decide
    refine ⟨hm, hdone, ?_⟩
    rw [step_goes_back.2 m hm hdone]
    exact ⟨rfl, rfl, by decide⟩

end Machine

end ByteMachine
