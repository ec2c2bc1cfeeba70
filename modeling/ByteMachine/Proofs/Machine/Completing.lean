/-
A bounded run is exact: it executes as many statements as it may, or as are left.

It begins at the pointer, or at the first statement when the program has been completed or the pointer is at its end.
From there the machine runs, so each turn of the loop is one step inside the program. The loop ends with its bound or
with the program, whichever comes first; at the end of the program the last statement has completed it, and otherwise the
machine is paused where it is. Without a bound above zero nothing is begun.

Contents:
- `entryPoint`: where a bounded run begins;
- `Fixed`, `fixed_kept`: what loads, resets and imports alone can change;
- `Appends`: the statements that a run adds to the trace;
- `RunsTo`: what a bounded run does, from its count to the status that it leaves.

Main statements:
- `runFor_eq_steps`: the loop of a running machine is a number of steps;
- `appends_steps`: steps inside the program add its statements to the trace, one after the other;
- `bounded_run_exact`: every bounded run of a machine with a program is exact, and can be interrupted.
-/
import Mathlib.Tactic
import ByteMachine.Proofs.Machine.Restarting

namespace ByteMachine.Machine

/-! ## What driving leaves alone -/

/-- configuration, program, preset name and the two sizes are the same -/
structure Fixed (m d : Machine) : Prop where
  config : d.config = m.config
  program : d.program = m.program
  preset : d.preset = m.preset
  memory : d.state.memory.size = m.state.memory.size
  registers : d.state.registers.count = m.state.registers.count

theorem Fixed.refl (m : Machine) : Fixed m m :=
  ⟨rfl, rfl, rfl, rfl, rfl⟩

theorem Fixed.trans {m d m' : Machine} (h : Fixed m d) (h' : Fixed d m') : Fixed m m' :=
  ⟨h'.config.trans h.config, h'.program.trans h.program, h'.preset.trans h.preset, h'.memory.trans h.memory,
    h'.registers.trans h.registers⟩

theorem Fixed.step {m d : Machine} (h : Fixed m d) : Fixed m d.step.2 := by
  rcases d.step_cases with ⟨-, hs⟩ | ⟨s, -, -, hs⟩
  · rw [hs]
    exact { h with }
  · rw [hs]
    refine { h with memory := ?_, registers := ?_ } <;> simp only [State.record]
    · rw [State.execute_size]
      exact h.memory
    · rw [State.execute_count]
      exact h.registers

/-- every operation that goes on with the trace keeps all of it -/
theorem fixed_kept (m : Machine) : Kept (fun op => op.continues = true) (Fixed m) where
  load ha ho _ _ := by
    rw [Op.continues_of_isLoad ho] at ha
    cases ha
  loadPreset ha _ _ := nomatch ha
  step := Fixed.step
  run {d} h := by
    unfold Machine.run
    split_ifs
    · exact h
    · exact { h with }
  pause {d} h := by
    rw [d.pause_eq]
    exact { h with
      memory := by simpa using h.memory
      registers := by simpa using h.registers }
  reset ha _ := nomatch ha
  setRegister _ _ h := { h with registers := (Registers.count_write ..).trans h.registers }
  writeMemory _ _ h := { h with memory := (Memory.size_write ..).trans h.memory }
  assign _ h := { h with registers := (Registers.count_assign ..).trans h.registers }
  restore ha _ _ := nomatch ha
  text ha _ := nomatch ha

/-! ## Where a run begins -/

/-- the statement at which a bounded run begins: the one at the pointer, or the first one of a new pass -/
def entryPoint (m : Machine) : ℕ :=
  if m.state.status = .completed ∨ m.program.length ≤ m.state.currentStep then 0 else m.state.currentStep

theorem entryPoint_lt {m : Machine} (hL : 0 < m.program.length) : m.entryPoint < m.program.length := by
  unfold entryPoint
  split_ifs with h
  · exact hL
  · exact Nat.not_le.1 fun hle => h (.inr hle)

/-- a machine that is before its end begins where it is -/
theorem entryPoint_of_lt {m : Machine} (hs : m.state.status ≠ .completed)
    (hp : m.state.currentStep < m.program.length) : m.entryPoint = m.state.currentStep :=
  if_neg fun h => h.elim hs (Nat.not_le.2 hp)

/-- starting a machine with a program puts it there -/
theorem run_eq {m : Machine} (hL : 0 < m.program.length) :
    m.run = { m with state := { m.state with currentStep := m.entryPoint, status := .running } } := by
  have he : m.program.isEmpty = false := m.program.isEmpty_eq_false_iff.2 hL
  simp [run, he, isCompleted, entryPoint]

theorem currentStep_run {m : Machine} (hL : 0 < m.program.length) : m.run.state.currentStep = m.entryPoint := by
  rw [run_eq hL]

theorem status_run {m : Machine} (hL : 0 < m.program.length) : m.run.state.status = .running := by
  rw [run_eq hL]

/-- a machine that has been started has its pointer inside the program -/
theorem currentStep_run_lt {m : Machine} (hL : 0 < m.program.length) :
    m.run.state.currentStep < m.run.program.length := by
  rw [currentStep_run hL, run_program]
  exact entryPoint_lt hL

/-! ## The loop as steps -/

theorem runFor_of_not_running {m : Machine} (h : m.state.status ≠ .running) (limit : ℕ) : m.runFor limit = (0, m) := by
  cases limit with
  | zero => rfl
  | succ limit => simp [runFor, isRunning, h]

theorem runFor_succ_of_running {m : Machine} (h : m.state.status = .running) (limit : ℕ) :
    m.runFor (limit + 1) = (m.step.1.count + (m.step.2.runFor limit).1, (m.step.2.runFor limit).2) := by
  simp [runFor, isRunning, h]

/-- **The loop of a running machine** is as many steps as the bound allows and the program has left. -/
theorem runFor_eq_steps {m : Machine} (hr : m.state.status = .running) (hp : m.state.currentStep < m.program.length)
    (limit : ℕ) :
    let n := min limit (m.program.length - m.state.currentStep)
    m.runFor limit = (n, m.performTimes n .step) := by
  induction limit generalizing m with
  | zero =>
    intro n
    have hn : n = 0 := Nat.zero_min _
    rw [hn]
    rfl
  | succ limit ih =>
    intro n
    obtain ⟨e, he⟩ := RunsInside.exists_executed (fun _ => hp) hr
    have hcount : m.step.1.count = 1 := by rw [he]; rfl
    have hstatus := status_step hp
    have hpointer := currentStep_step hp
    rw [runFor_succ_of_running hr, hcount]
    rcases Nat.lt_or_ge (m.state.currentStep + 1) m.program.length with hlt | hle
    · -- the machine is still running, with one statement less to execute
      rw [State.statusAfter_of_lt _ hlt, hr, if_pos rfl] at hstatus
      have hrest := ih hstatus (by rwa [hpointer, step_program])
      rw [hpointer, step_program] at hrest
      have hn : n = min limit (m.program.length - (m.state.currentStep + 1)) + 1 := by omega
      rw [hrest, hn, performTimes_succ, Nat.add_comm]
      rfl
    · -- this was the last statement
      rw [State.statusAfter_of_le _ hle] at hstatus
      have hstopped : m.step.2.state.status ≠ .running := by
        rw [hstatus]
        exact RunStatus.noConfusion
      have hn : n = 1 := by omega
      rw [runFor_of_not_running hstopped, hn]
      rfl

/-- a bounded run is a start, as many steps, and a pause -/
theorem runToCompletion_eq_steps {m : Machine} (hL : 0 < m.program.length) {limit : ℕ} (h : 0 < limit) :
    let n := min limit (m.program.length - m.entryPoint)
    m.runToCompletion limit = (n, (m.run.performTimes n .step).pause) := by
  intro n
  have hrun := runFor_eq_steps (status_run hL) (currentStep_run_lt hL) limit
  rw [currentStep_run hL, run_program] at hrun
  simp only [runToCompletion, h.ne', if_false, hrun]
  rfl

/-! ## The trace of a run -/

/-- `m'` has the trace of `m` and, behind it, `n` statements of the program of `m` from the `p`-th on -/
def Appends (m m' : Machine) (p n : ℕ) : Prop :=
  ∃ entries, m'.state.trace = m.state.trace ++ entries ∧
    entries.map TraceEntry.step = List.range' p n ∧
    entries.map TraceEntry.operation = (m.program.sources.drop p).take n

/-- a step before the end of the program adds the statement at the pointer to the trace -/
theorem step_recorded {m : Machine} (h : m.state.currentStep < m.program.length) :
    ∃ e : TraceEntry, (m.program.statement? m.state.currentStep).map Statement.source = some e.operation ∧
      e.step = m.state.currentStep ∧ m.step.2.state.trace = m.state.trace ++ [e] := by
  rcases m.step_cases with ⟨hle, -⟩ | ⟨s, hs, -, hstep⟩
  · exact absurd h (Nat.not_lt.2 hle)
  · rw [hstep, hs]
    exact ⟨⟨m.state.currentStep, s.source, (m.state.execute m.config.memorySize s.op).remark s.op⟩, rfl, rfl,
      by simp only [State.record, State.execute_trace]⟩

/-- **Steps inside the program** add its statements to the trace, one after the other. -/
theorem appends_steps {m : Machine} {n : ℕ} (h : m.state.currentStep + n ≤ m.program.length) :
    Appends m (m.performTimes n .step) m.state.currentStep n := by
  induction n with
  | zero => exact ⟨[], by simp [performTimes, performAll], rfl, rfl⟩
  | succ n ih =>
    obtain ⟨entries, htrace, hplaces, hsources⟩ := ih (by omega)
    have hpointer := currentStep_steps (m := m) (n := n) (by omega)
    have hprogram := program_steps m n
    rw [performTimes_add m n 1]
    show Appends m (m.performTimes n .step).step.2 m.state.currentStep (n + 1)
    generalize m.performTimes n .step = d at htrace hpointer hprogram ⊢
    obtain ⟨e, hget, heq, htrace'⟩ := d.step_recorded (by rw [hpointer, hprogram]; omega)
    have hsource : (m.program.sources.drop m.state.currentStep)[n]? = some e.operation := by
      rw [List.getElem?_drop, Program.sources, List.getElem?_map, ← hget, hprogram, hpointer]
      rfl
    refine ⟨entries ++ [e], ?_, ?_, ?_⟩
    · rw [htrace', htrace, List.append_assoc]
    · rw [List.map_append, hplaces, List.map_singleton, heq, hpointer, List.range'_1_concat]
    · rw [List.map_append, hsources, List.map_singleton, List.take_add_one, hsource]
      rfl

/-- pausing leaves the trace as it is -/
theorem Appends.pause {m m' : Machine} {p n : ℕ} (h : Appends m m' p n) : Appends m m'.pause p n := by
  rw [m'.pause_eq]
  simpa [Appends] using h

/-- starting a machine leaves its program and its trace as they are -/
theorem Appends.of_run {m m' : Machine} {n : ℕ} (hL : 0 < m.program.length)
    (h : Appends m.run m' m.run.state.currentStep n) : Appends m m' m.entryPoint n := by
  rwa [run_eq hL] at h

/-! ## Bounded runs -/

/-- What a bounded run of `m` does, when it executes `n` statements and leaves `m'`. -/
structure RunsTo (m : Machine) (limit n : ℕ) (m' : Machine) : Prop where
  count : n = min limit (m.program.length - m.entryPoint)
  /-- the loop ends, each of its steps executes, and nothing but the pause comes after it -/
  loop : ∃ outcomes last, Loop limit m.run outcomes last ∧ .restarted ∉ outcomes ∧ outcomes.length = n ∧ m' = last.pause
  trace : Appends m m' m.entryPoint n
  completed : m.program.length - m.entryPoint ≤ limit →
    m'.state.status = .completed ∧ m'.state.currentStep = m.program.length
  paused : limit < m.program.length - m.entryPoint →
    m'.state.status = .paused ∧ m'.state.currentStep = m.entryPoint + limit
  fixed : Fixed m m'

/-- a running machine that is paused after `n` steps: still before the end of its program, or completed with it -/
theorem status_steps_pause {m : Machine} (hr : m.state.status = .running) {n : ℕ} (hn : 0 < n)
    (h : m.state.currentStep + n ≤ m.program.length) :
    (m.performTimes n .step).pause.state.status =
      if m.state.currentStep + n < m.program.length then .paused else .completed := by
  rw [pause_eq]
  split_ifs with hlt
  · simp [State.paused, running_steps hr hlt]
  · obtain ⟨k, rfl⟩ := Nat.exists_eq_succ_of_ne_zero hn.ne'
    rw [State.paused_status_eq_completed, status_steps h, State.statusAfter_of_le _ (Nat.not_lt.1 hlt)]

theorem currentStep_steps_pause {m : Machine} {n : ℕ} (h : m.state.currentStep + n ≤ m.program.length) :
    (m.performTimes n .step).pause.state.currentStep = m.state.currentStep + n := by
  rw [pause_eq]
  simpa using currentStep_steps h

/-- **A bounded run is exact**, whatever the machine was before. -/
theorem runsTo_runToCompletion {m : Machine} (hL : 0 < m.program.length) {limit : ℕ} (h : 0 < limit) :
    RunsTo m limit (m.runToCompletion limit).1 (m.runToCompletion limit).2 := by
  have hp := entryPoint_lt hL
  have hinside : m.run.RunsInside := fun _ => currentStep_run_lt hL
  have hfixed : Fixed m (m.runToCompletion limit).2 := (fixed_kept m).runToCompletion limit (.refl m)
  obtain ⟨outcomes, last, hloop⟩ := hinside.exists_loop limit
  obtain ⟨hmem, hfor⟩ := hloop.runFor_eq hinside
  have hloop_eq : m.runToCompletion limit = (outcomes.length, last.pause) := by
    simp only [runToCompletion, h.ne', if_false, hfor]
  have heq := runToCompletion_eq_steps hL h
  set n := min limit (m.program.length - m.entryPoint)
  have hn : 0 < n := by omega
  have hle : m.run.state.currentStep + n ≤ m.run.program.length := by
    rw [currentStep_run hL, run_program]
    omega
  have htrace := (appends_steps hle).pause.of_run hL
  have hstatus := status_steps_pause (status_run hL) hn hle
  have hpointer := currentStep_steps_pause hle
  rw [currentStep_run hL, run_program] at hstatus
  rw [currentStep_run hL] at hpointer
  rw [heq] at hfixed ⊢
  rw [heq] at hloop_eq
  obtain ⟨hcount, hlast⟩ := Prod.mk.inj hloop_eq
  refine ⟨rfl, ⟨outcomes, last, hloop, hmem, hcount.symm, hlast⟩, htrace, fun hle => ?_, fun hlt => ?_, hfixed⟩
  · have hend : m.entryPoint + n = m.program.length := by omega
    exact ⟨hstatus.trans (if_neg (by omega)), hpointer.trans hend⟩
  · have hend : n = limit := min_eq_left hlt.le
    exact ⟨hstatus.trans (if_pos (by omega)), hpointer.trans (by rw [hend])⟩

/-- a bounded run does not tell a machine from the same one started and paused -/
theorem runToCompletion_run_pause {m : Machine} (hL : 0 < m.program.length) {limit : ℕ} (h : 0 < limit) :
    (m.run.pause.runToCompletion limit).2 = (m.runToCompletion limit).2 := by
  have hback : m.run.pause.run = m.run := by
    rw [run_eq hL]
    exact run_pause rfl (entryPoint_lt hL)
  rw [runToCompletion_eq_ticks _ h, runToCompletion_eq_ticks _ h, hback]

theorem ready_run_pause {m : Machine} (hL : 0 < m.program.length) : m.run.pause.Ready := by
  rw [run_eq hL, pause_eq]
  exact ⟨.inr rfl, entryPoint_lt hL⟩

/-- **A bounded run can be interrupted** before the end of the program, and the counts of its parts add up. -/
theorem runToCompletion_add {m : Machine} (hL : 0 < m.program.length) {a b : ℕ} (ha : 0 < a) (hb : 0 < b)
    (hlt : a < m.program.length - m.entryPoint) :
    let first := m.runToCompletion a
    let second := first.2.runToCompletion b
    second.2 = (m.runToCompletion (a + b)).2 ∧ first.1 + second.1 = (m.runToCompletion (a + b)).1 := by
  intro first second
  have hfirst : RunsTo m a first.1 first.2 := runsTo_runToCompletion hL ha
  obtain ⟨hpaused, hpointer⟩ := hfirst.paused hlt
  have hlength : first.2.program.length = m.program.length := congrArg Program.length hfirst.fixed.program
  constructor
  · have hmiddle : m.run.pause.state.currentStep + a < m.run.pause.program.length := by
      rw [run_eq hL, pause_eq]
      show m.entryPoint + a < m.program.length
      omega
    have hadd := (ready_run_pause hL).runToCompletion_add b hmiddle
    rwa [runToCompletion_run_pause hL ha, runToCompletion_run_pause hL (Nat.add_pos_left ha b)] at hadd
  · have hsecond : RunsTo first.2 b second.1 second.2 := runsTo_runToCompletion (hlength.symm ▸ hL) hb
    have hentry : first.2.entryPoint = m.entryPoint + a := by
      rw [entryPoint_of_lt (by rw [hpaused]; exact RunStatus.noConfusion) (by rw [hpointer, hlength]; omega), hpointer]
    rw [hfirst.count, hsecond.count, (runsTo_runToCompletion hL (Nat.add_pos_left ha b)).count, hentry, hlength]
    omega

/-- **Bounded runs are exact.** Take any machine with a program, however it was reached. A run with a bound above zero
begins at the pointer, or at the first statement if the program is completed or the pointer at its end. Its loop ends. It
executes as many statements as the bound allows and the program has left, answers how many these were, and adds exactly
them to the trace. It leaves a completed machine if the bound was enough, and otherwise a paused one at the statement
that is next. Configuration, program, preset name and sizes stay. A bound of zero changes nothing, and a run that is
interrupted before the end of the program and taken up again is the run with both bounds. -/
theorem bounded_run_exact (m : Machine) (hL : 0 < m.program.length) :
    (∀ limit, 1 ≤ limit → RunsTo m limit (m.runToCompletion limit).1 (m.runToCompletion limit).2) ∧
    m.runToCompletion 0 = (0, m) ∧
    ∀ a b, 1 ≤ a → a < m.program.length - m.entryPoint → 1 ≤ b →
      let first := m.runToCompletion a
      let second := first.2.runToCompletion b
      second.2 = (m.runToCompletion (a + b)).2 ∧ first.1 + second.1 = (m.runToCompletion (a + b)).1 :=
  ⟨fun _ => runsTo_runToCompletion hL, m.runToCompletion_zero, fun _ _ ha hlt hb => runToCompletion_add hL ha hb hlt⟩

/-- a machine that is completed begins a new pass, and is interrupted in it -/
theorem bounded_run_exact_atEnd :
    0 < atEnd.program.length ∧ atEnd.entryPoint = 0 ∧ atEnd.state.currentStep = 5 ∧
    RunsTo atEnd 2 (atEnd.runToCompletion 2).1 (atEnd.runToCompletion 2).2 ∧
    (atEnd.runToCompletion 2).2.state.status = .paused ∧ (atEnd.runToCompletion 2).2.state.currentStep = 2 ∧
    (atEnd.runToCompletion 2).1 + ((atEnd.runToCompletion 2).2.runToCompletion 9).1 = 5 ∧
    ((atEnd.runToCompletion 2).2.runToCompletion 9).2 = (atEnd.runToCompletion 11).2 ∧
    (atEnd.runToCompletion 11).2.state.status = .completed := by
  have hv : atEnd.program.length = 5 ∧ atEnd.state.currentStep = 5 ∧ atEnd.entryPoint = 0 := by decide +kernel
  obtain ⟨hlength, hend, hentry⟩ := hv
  have hL : 0 < atEnd.program.length := by rw [hlength]; decide
  obtain ⟨hexact, -, hadd⟩ := bounded_run_exact atEnd hL
  have htwo := hexact 2 (by decide)
  have heleven := hexact 11 (by decide)
  have hcompleted := (heleven.completed (by rw [hentry, hlength]; decide)).1
  obtain ⟨hpaused, hpointer⟩ := htwo.paused (by rw [hentry, hlength]; decide)
  obtain ⟨hsame, hcounts⟩ := hadd 2 9 (by decide) (by rw [hentry, hlength]; decide) (by decide)
  rw [hentry] at hpointer
  refine ⟨hL, hentry, hend, htwo, hpaused, hpointer, ?_, hsame, hcompleted⟩
  rw [hcounts, heleven.count, hentry, hlength]
  rfl

end ByteMachine.Machine
