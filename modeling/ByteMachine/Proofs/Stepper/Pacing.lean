/-
Automatic steps keep to the clock.

The clock is set by two things only: an operation that starts the machine, and a tick that fires. From then on no tick is
due before an interval has passed, and setting the clock again only puts the next one off. What stops the machine stops
the clock, and only a start sets a clock that stands still. So each automatic step can be charged to an interval of its
own, which begins where the clock was set last.

Contents:
- `starts`, `setsAt?`, `lastSet?`: what starts the machine, what sets the clock, and when that was done last;
- `automatic`, `automaticSteps`: the statements that ticks execute, counted by what they add to the trace;
- `Unstarted`: operations among which nothing starts the machine;
- `Paced`: the invariant, for an interval and the time at which the clock was set last.

Main statements:
- `Paced.perform`, `Paced.performAll`: one operation and a whole run keep the invariant;
- `Paced.automatic_tick_eq_one_iff`: a tick executes exactly when the machine runs and its interval has passed;
- `Paced.automaticSteps_mul_le`: automatic steps fill an interval each;
- `automatic_steps_respect_clock`: all of it, for any stepper around a machine that is not running.
-/
import Mathlib.Tactic
import ByteMachine.Proofs.Stepper.InStep

namespace ByteMachine

/-- the time of an operation, if it looks at the clock -/
def StepperOp.time? : StepperOp → Option ℕ
  | .run now | .tick now => some now
  | _ => none

/-- from a time before the operation to the end of a window: in order, with its time and without -/
theorem sorted_of_time {last now stop : ℕ} (op : StepperOp) {ops : List StepperOp} (ht : op.time? = some now)
    (h : (last :: ((op :: ops).filterMap StepperOp.time? ++ [stop])).Pairwise (· ≤ ·)) :
    last ≤ now ∧ (now :: (ops.filterMap StepperOp.time? ++ [stop])).Pairwise (· ≤ ·) ∧
      (last :: (ops.filterMap StepperOp.time? ++ [stop])).Pairwise (· ≤ ·) := by
  rw [List.filterMap_cons_some ht, List.cons_append] at h
  obtain ⟨hlast, hrest⟩ := List.pairwise_cons.1 h
  refine ⟨hlast now List.mem_cons_self, hrest, List.pairwise_cons.2 ⟨fun t ht => ?_, (List.pairwise_cons.1 hrest).2⟩⟩
  exact hlast t (List.mem_cons_of_mem now ht)

theorem Machine.RunsInside.tick {m : Machine} (h : m.RunsInside) : m.tick.2.RunsInside := by
  unfold Machine.tick
  split_ifs
  · exact h.step
  · exact h

namespace Stepper

/-! ## What is seen of a run -/

/-- does the operation start the machine? Without a program there is nothing to start -/
def starts (s : Stepper) : StepperOp → Bool
  | .run _ => s.machine.run.isRunning
  | _ => false

/-- the time at which the operation sets the clock: it starts the machine, or it is a tick that fires -/
def setsAt? (s : Stepper) : StepperOp → Option ℕ
  | .run now => if s.machine.run.isRunning then some now else none
  | .tick now => if s.clock.isDue now then some now else none
  | _ => none

theorem setsAt?_run (s : Stepper) (now : ℕ) :
    s.setsAt? (.run now) = if s.machine.run.isRunning then some now else none := rfl

theorem setsAt?_tick (s : Stepper) (now : ℕ) :
    s.setsAt? (.tick now) = if s.clock.isDue now then some now else none := rfl

/-- the time at which one of the operations set the clock last -/
def lastSet? (s : Stepper) : List StepperOp → Option ℕ
  | [] => none
  | op :: ops => (lastSet? (s.perform op) ops).or (s.setsAt? op)

/-- how many statements the operation executes on its own: what a tick adds to the trace -/
def automatic (s : Stepper) : StepperOp → ℕ
  | .tick now => (s.tick now).machine.state.trace.length - s.machine.state.trace.length
  | _ => 0

def automaticSteps (s : Stepper) : List StepperOp → ℕ
  | [] => 0
  | op :: ops => s.automatic op + automaticSteps (s.perform op) ops

/-- none of the operations starts the machine -/
def Unstarted (s : Stepper) : List StepperOp → Prop
  | [] => True
  | op :: ops => s.starts op = false ∧ Unstarted (s.perform op) ops

/-! ## Machines that stand still -/

theorem machine_tick (s : Stepper) (now : ℕ) :
    (s.tick now).machine = if s.clock.isDue now then s.machine.tick.2 else s.machine := by
  unfold Stepper.tick
  split_ifs
  · rfl
  · rfl

theorem machine_run (s : Stepper) (now : ℕ) : (s.run now).machine = s.machine.run := by
  unfold Stepper.run
  dsimp only
  split_ifs
  · rfl
  · rfl

theorem machine_scroll (s : Stepper) (down : Bool) : (s.scroll down).machine = s.machine := by
  unfold Stepper.scroll
  split_ifs
  · rfl
  · rfl
  · rfl

/-- a tick changes nothing in a machine that stands still, due or not -/
theorem machine_tick_of_not_running {s : Stepper} (h : s.machine.state.status ≠ .running) (now : ℕ) :
    (s.tick now).machine = s.machine := by
  rw [machine_tick, Machine.tick_of_not_running h]
  split_ifs
  · rfl
  · rfl

/-- only a start makes a machine run that stands still -/
theorem status_perform_ne_running {s : Stepper} (h : s.machine.state.status ≠ .running) {op : StepperOp}
    (hop : s.starts op = false) : (s.perform op).machine.state.status ≠ .running := by
  rw [← Machine.isRunning_eq_false_iff]
  cases op with
  | step => exact Machine.isRunning_step s.machine.isRunning_pause
  | run now =>
    show (s.run now).machine.isRunning = false
    rw [machine_run]
    exact hop
  | pause => exact s.machine.isRunning_pause
  | tick now =>
    show (s.tick now).machine.isRunning = false
    rw [machine_tick_of_not_running h, Machine.isRunning_eq_false_iff]
    exact h
  | reset => rfl
  | scroll down =>
    show (s.scroll down).machine.isRunning = false
    rw [machine_scroll, Machine.isRunning_eq_false_iff]
    exact h

theorem status_performAll_ne_running {s : Stepper} (h : s.machine.state.status ≠ .running) {ops : List StepperOp}
    (hops : s.Unstarted ops) : (s.performAll ops).machine.state.status ≠ .running := by
  induction ops generalizing s with
  | nil => exact h
  | cons op ops ih => exact ih (status_perform_ne_running h hops.1) hops.2

/-! ## The invariant -/

/-- The clock has this interval and was set last at `last`: it runs together with the machine, its next tick is an
interval after it was set, and a running machine has a statement to execute. -/
structure Paced (interval : ℕ) (last : Option ℕ) (s : Stepper) : Prop where
  period : s.clock.interval = interval
  clock : s.clock.isRunning = s.machine.isRunning
  next : ∀ next, s.clock.next = some next → ∃ t, last = some t ∧ next = t + interval
  inside : s.machine.RunsInside

namespace Paced

variable {interval : ℕ} {last : Option ℕ} {s : Stepper}

/-- a stepper whose clock stands still, whenever that was set -/
theorem of_stopped (hi : s.clock.interval = interval) (hn : s.clock.next = none)
    (hr : s.machine.isRunning = false) : Paced interval last s where
  period := hi
  clock := by rw [Clock.isRunning, hn, hr]; rfl
  next next h := by rw [hn] at h; cases h
  inside := Machine.runsInside_of_status ((Machine.isRunning_eq_false_iff _).1 hr)

/-- a stepper whose clock has just been set -/
theorem of_set {now : ℕ} (hi : s.clock.interval = interval) (hn : s.clock.next = some (now + interval))
    (hr : s.machine.isRunning = true) (hm : s.machine.RunsInside) : Paced interval (some now) s where
  period := hi
  clock := by rw [Clock.isRunning, hn, hr]; rfl
  next next h := ⟨now, rfl, by rw [hn] at h; exact (Option.some.inj h).symm⟩
  inside := hm

/-- a start at `now` sets the clock, or else the clock stands still and was set at any time -/
theorem run_at (h : Paced interval last s) (now : ℕ) {last' : Option ℕ}
    (hset : s.machine.run.isRunning = true → last' = some now) : Paced interval last' (s.run now) := by
  unfold Stepper.run
  dsimp only
  split_ifs with hr
  · rw [hset hr]
    exact of_set h.period (by rw [Clock.start, h.period]) hr h.inside.run
  · -- nothing to run, so the machine stood still before, and the clock with it
    have hn : s.machine.run.isRunning = false := by simpa using hr
    have hc : s.clock.isRunning = false := h.clock.trans (Machine.isRunning_of_run hn)
    exact of_stopped h.period (by simpa [Clock.isRunning] using hc) hn

theorem run (h : Paced interval last s) (now : ℕ) : Paced interval ((s.setsAt? (.run now)).or last) (s.run now) :=
  h.run_at now fun hr => by rw [setsAt?_run, if_pos hr, Option.some_or]

theorem tick (h : Paced interval last s) (now : ℕ) :
    Paced interval ((s.setsAt? (.tick now)).or last) (s.tick now) := by
  rw [setsAt?_tick]
  unfold Stepper.tick
  split_ifs with hd
  · have hm : s.machine.tick.2.RunsInside := h.inside.tick
    have hpoll : s.clock.poll now = s.clock.start now := by rw [Clock.poll, if_pos hd]
    cases ht : s.machine.tick with
    | mk outcome machine =>
      rw [ht] at hm
      dsimp only
      rw [hpoll]
      split_ifs with hr
      · exact of_set h.period (by rw [Clock.start, h.period]) hr hm
      · exact of_stopped h.period rfl (by simpa using hr)
  · exact h

theorem step (h : Paced interval last s) : Paced interval last s.step :=
  of_stopped h.period rfl (Machine.isRunning_step s.machine.isRunning_pause)

theorem pause (h : Paced interval last s) : Paced interval last s.pause :=
  of_stopped h.period rfl s.machine.isRunning_pause

theorem reset (h : Paced interval last s) : Paced interval last s.reset :=
  of_stopped h.period rfl rfl

theorem scroll (h : Paced interval last s) (down : Bool) : Paced interval last (s.scroll down) := by
  unfold Stepper.scroll
  split_ifs
  · exact { h with }
  · exact h
  · exact { h with }

/-- **One operation keeps the invariant**; what sets the clock becomes the time at which it was set last. -/
theorem perform (h : Paced interval last s) (op : StepperOp) :
    Paced interval ((s.setsAt? op).or last) (s.perform op) := by
  cases op with
  | step => exact h.step
  | run now => exact h.run now
  | pause => exact h.pause
  | tick now => exact h.tick now
  | reset => exact h.reset
  | scroll down => exact h.scroll down

/-- **A whole run keeps the invariant**, at whatever times its operations come. -/
theorem performAll (h : Paced interval last s) (ops : List StepperOp) :
    Paced interval ((s.lastSet? ops).or last) (s.performAll ops) := by
  induction ops generalizing s last with
  | nil => exact h
  | cons op ops ih =>
    rw [lastSet?, Option.or_assoc]
    exact ih (h.perform op)

/-! ### Ticks -/

/-- a tick that is due finds a running machine, executes the statement at its pointer and records it -/
theorem executed_of_due (h : Paced interval last s) {now : ℕ} (hd : s.clock.isDue now = true) :
    ∃ e, s.machine.step = (.executed e, (s.tick now).machine) ∧
      (s.tick now).machine.state.trace = s.machine.state.trace ++ [e] := by
  have hr : s.machine.state.status = .running := by
    rw [← Machine.isRunning_iff, ← h.clock]
    unfold Clock.isDue at hd
    split at hd
    · next next hn => rw [Clock.isRunning, hn]; rfl
    · cases hd
  have hm : (s.tick now).machine = s.machine.step.2 := by
    rw [machine_tick, if_pos hd, Machine.tick_of_running hr]
  obtain ⟨e, he⟩ := h.inside.exists_executed hr
  obtain ⟨statement, -, -, hs⟩ := Machine.of_step_executed he
  refine ⟨e, ?_, ?_⟩
  · rw [hm, ← he]
  · rw [hm, hs]
    simp only [State.record, State.execute_trace]

/-- due means that the machine runs and that an interval has passed since the clock was set -/
theorem isDue_iff (h : Paced interval last s) (now : ℕ) :
    s.clock.isDue now = true ↔ s.machine.state.status = .running ∧ ∃ t, last = some t ∧ t + interval ≤ now := by
  rw [← Machine.isRunning_iff, ← h.clock, Clock.isDue, Clock.isRunning]
  cases hn : s.clock.next with
  | none => simp
  | some next =>
    obtain ⟨t, rfl, rfl⟩ := h.next next hn
    simp

theorem automatic_tick_of_due (h : Paced interval last s) {now : ℕ} (hd : s.clock.isDue now = true) :
    s.automatic (.tick now) = 1 := by
  obtain ⟨e, -, ht⟩ := h.executed_of_due hd
  simp [automatic, ht]

theorem automatic_tick_of_not_due {now : ℕ} (hd : s.clock.isDue now = false) : s.automatic (.tick now) = 0 := by
  simp [automatic, machine_tick, hd]

/-- **A tick executes a statement exactly when the machine runs and an interval has passed** since the clock was set. -/
theorem automatic_tick_eq_one_iff (h : Paced interval last s) (now : ℕ) :
    s.automatic (.tick now) = 1 ↔
      s.machine.state.status = .running ∧ ∃ t, last = some t ∧ t + interval ≤ now := by
  rw [← h.isDue_iff now]
  cases hd : s.clock.isDue now with
  | true => simp [h.automatic_tick_of_due hd]
  | false => simp [automatic_tick_of_not_due hd]

/-! ### Windows -/

/-- **Automatic steps fill an interval each.** From when the clock was set last to any later time, over times that never
go back, there is room for all of them. -/
theorem automaticSteps_mul_le {last stop : ℕ} (h : Paced interval (some last) s) {ops : List StepperOp}
    (hsorted : (last :: (ops.filterMap StepperOp.time? ++ [stop])).Pairwise (· ≤ ·)) :
    last + s.automaticSteps ops * interval ≤ stop := by
  induction ops generalizing s last with
  | nil => simpa [automaticSteps] using hsorted
  | cons op ops ih =>
    have hnext := h.perform op
    cases op with
    | step | pause | reset | scroll =>
      -- nothing happens to the clock that a later tick could be charged to
      have hskip := ih hnext hsorted
      simpa [automaticSteps, automatic] using hskip
    | run now =>
      obtain ⟨hnow, hrest, hskip⟩ := sorted_of_time (.run now) rfl hsorted
      have hsteps : s.automaticSteps (.run now :: ops) = (s.run now).automaticSteps ops := Nat.zero_add _
      rw [setsAt?_run] at hnext
      rw [hsteps]
      split_ifs at hnext
      · -- the next interval begins here, and what has passed of the last one is lost
        have hle := ih hnext hrest
        exact (Nat.add_le_add_right hnow _).trans hle
      · exact ih hnext hskip
    | tick now =>
      obtain ⟨hnow, hrest, hskip⟩ := sorted_of_time (.tick now) rfl hsorted
      have hsteps : s.automaticSteps (.tick now :: ops) =
          s.automatic (.tick now) + (s.tick now).automaticSteps ops := rfl
      rw [setsAt?_tick] at hnext
      rw [hsteps]
      split_ifs at hnext with hd
      · -- the statement is charged to the interval that has passed
        have hle := ih hnext hrest
        obtain ⟨-, t, ht, hpassed⟩ := (h.isDue_iff now).1 hd
        cases ht
        rw [h.automatic_tick_of_due hd, Nat.add_mul, Nat.one_mul, ← Nat.add_assoc]
        exact (Nat.add_le_add_right hpassed _).trans hle
      · have hle := ih hnext hskip
        rw [automatic_tick_of_not_due (by simpa using hd), Nat.zero_add]
        exact hle

end Paced

/-! ## Every stepper -/

/-- before its first operation a stepper around a machine that is not running is paced -/
theorem paced_ofMachine {m : Machine} (h : m.state.status ≠ .running) (interval : ℕ) (last : Option ℕ) :
    Paced interval last { ofMachine m with clock := { interval } } :=
  .of_stopped rfl rfl (m.isRunning_eq_false_iff.2 h)

/-- a step by hand, a pause and a reset leave a machine that stands still -/
theorem status_ne_running_of_stops {s : Stepper} {op : StepperOp}
    (h : op = .step ∨ op = .pause ∨ op = .reset ∨ (s.perform op).machine.state.status = .completed) :
    (s.perform op).machine.state.status ≠ .running := by
  rcases h with rfl | rfl | rfl | hc
  · exact (Machine.isRunning_eq_false_iff _).1 (Machine.isRunning_step s.machine.isRunning_pause)
  · exact (Machine.isRunning_eq_false_iff _).1 s.machine.isRunning_pause
  · exact RunStatus.noConfusion
  · rw [hc]
    exact RunStatus.noConfusion

/-- **Automatic steps respect the clock.** Take a stepper around any machine that is not running, with any interval, in
whatever unit times are counted, after any operations at any times. A tick executes the statement at the pointer and
records it, or does nothing to the machine. It executes exactly when the machine is running and an interval has passed
since the last operation that set the clock: a start that found something to run, or a tick that fired. After a step by
hand, a pause, a reset, or the end of the program no tick does anything to the machine, at any time, until it is started
again. And from a start on, as long as times do not go back, the automatic steps of a window fill an interval each. -/
theorem automatic_steps_respect_clock (m : Machine) (hm : m.state.status ≠ .running) (interval : ℕ)
    (before : List StepperOp) :
    let start : Stepper := { ofMachine m with clock := { interval } }
    let s := start.performAll before
    (∀ now, (s.automatic (.tick now) = 0 ∧ (s.tick now).machine = s.machine) ∨
      (s.automatic (.tick now) = 1 ∧ ∃ e, s.machine.step = (.executed e, (s.tick now).machine) ∧
        (s.tick now).machine.state.trace = s.machine.state.trace ++ [e])) ∧
    (∀ now, s.automatic (.tick now) = 1 ↔ s.machine.state.status = .running ∧
      ∃ t, start.lastSet? before = some t ∧ t + interval ≤ now) ∧
    (∀ op, op = .step ∨ op = .pause ∨ op = .reset ∨ (s.perform op).machine.state.status = .completed →
      ∀ rest, (s.perform op).Unstarted rest →
        let later := (s.perform op).performAll rest
        ∀ now, later.automatic (.tick now) = 0 ∧ (later.tick now).machine = later.machine) ∧
    ∀ (now d : ℕ) (during : List StepperOp),
      (now :: (during.filterMap StepperOp.time? ++ [now + d])).Pairwise (· ≤ ·) →
        (s.run now).automaticSteps during * interval ≤ d ∧
          (0 < interval → (s.run now).automaticSteps during ≤ d / interval) := by
  intro start s
  have hstart : Paced interval none start := paced_ofMachine hm interval none
  have hs : Paced interval (start.lastSet? before) s := by
    have hrun := hstart.performAll before
    rwa [Option.or_none] at hrun
  refine ⟨fun now => ?_, hs.automatic_tick_eq_one_iff, fun op hop rest hrest => ?_, fun now d during hsorted => ?_⟩
  · cases hd : s.clock.isDue now with
    | true => exact .inr ⟨hs.automatic_tick_of_due hd, hs.executed_of_due hd⟩
    | false => exact .inl ⟨Paced.automatic_tick_of_not_due hd, by simp [machine_tick, hd]⟩
  · intro later now
    have hstill : later.machine.state.status ≠ .running :=
      status_performAll_ne_running (status_ne_running_of_stops hop) hrest
    have hsame := machine_tick_of_not_running hstill now
    refine ⟨?_, hsame⟩
    rw [automatic, hsame, Nat.sub_self]
  · have hset : Paced interval (some now) (s.run now) := hs.run_at now fun _ => rfl
    have hfill : (s.run now).automaticSteps during * interval ≤ d := by
      have hle := hset.automaticSteps_mul_le hsorted
      omega
    exact ⟨hfill, fun hpos => (Nat.le_div_iff_mul_le hpos).2 hfill⟩

/-- a start, a tick that comes too early, one that is due, and a late one -/
def paced : List StepperOp :=
  [.run 10, .tick 14, .tick 15, .tick 23]

theorem automatic_steps_respect_clock_paced :
    let m := (Machine.fresh threeRows).performAll [.load ["PC ← PC + 1", "?", "IR ← MDR", "A ← R[0]"]]
    let start : Stepper := { ofMachine m with clock := { interval := 5 } }
    let s := start.performAll paced
    m.state.status ≠ .running ∧ start.lastSet? paced = some 23 ∧
    (s.automatic (.tick 28) = 1 ∧ s.automatic (.tick 27) ≠ 1) ∧
    (s.pause.Unstarted [.tick 30, .step] ∧ (s.pause.performAll [.tick 30, .step]).automatic (.tick 99) = 0) ∧
    (s.run 30).automaticSteps [.tick 34, .run 36, .tick 40, .tick 41, .tick 48] * 5 ≤ 20 ∧
    (s.run 30).automaticSteps [.tick 34, .run 36, .tick 40, .tick 41, .tick 48] = 2 := by
  intro m start s
  have hm : m.state.status ≠ .running := by decide
  have hlast : start.lastSet? paced = some 23 := by decide
  obtain ⟨-, hexact, hstops, hwindow⟩ := automatic_steps_respect_clock m hm 5 paced
  have hrunning : s.machine.state.status = .running := by decide
  have hrest : s.pause.Unstarted [.tick 30, .step] := ⟨rfl, rfl, trivial⟩
  refine ⟨hm, hlast, ⟨(hexact 28).2 ⟨hrunning, 23, hlast, by decide⟩, fun h => ?_⟩,
    ⟨hrest, (hstops .pause (.inr (.inl rfl)) _ hrest 99).1⟩,
    (hwindow 30 20 [.tick 34, .run 36, .tick 40, .tick 41, .tick 48] (by decide)).1, by decide⟩
  obtain ⟨-, t, ht, hle⟩ := (hexact 27).1 h
  cases hlast.symm.trans ht
  exact absurd hle (by decide)

end Stepper

end ByteMachine
