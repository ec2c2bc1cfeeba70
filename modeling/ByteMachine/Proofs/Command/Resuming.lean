/-
An interrupted run resumes exactly, across commands.

A run that stops before the end of the program leaves a machine that is ready for the next statement. Its snapshot fits
the configuration that it was made under, and its counts are small enough to be read back, so a second command restores
this very machine, and from there on it does what one longer run would have done.

Contents:
- `Setup.resuming`: the same setup, but from a snapshot;
- `Machine.AtBeginning.interrupted`: what a run leaves that stops before the end;
- `Setup.prepare_resuming`: a snapshot on file prepares the machine that it was made of.

Main statement: `interrupted_run_resumes`.
-/
import Mathlib.Tactic
import ByteMachine.Command.Usage
import ByteMachine.Proofs.Command.Preparing
import ByteMachine.Proofs.Directory.Writing
import ByteMachine.Proofs.Machine.Driving
import ByteMachine.Proofs.Snapshot.Document

namespace ByteMachine

/-! ## Interrupted machines -/

namespace Machine

theorem AtBeginning.ready {m : Machine} (h : m.AtBeginning) : m.Ready :=
  ⟨.inl h.status, h.pointer.trans_lt h.program⟩

/-- the entries of the trace are statements before the pointer -/
theorem trace_step_lt {m : Machine} (h : m.state.currentStep < m.program.length)
    (ht : ∀ e ∈ m.state.trace, e.step < m.state.currentStep) :
    ∀ e ∈ m.step.2.state.trace, e.step < m.step.2.state.currentStep := by
  intro e he
  rw [currentStep_step h]
  rcases m.step_cases with ⟨hle, -⟩ | ⟨s, -, -, hm⟩
  · exact absurd h (Nat.not_lt.2 hle)
  · simp only [hm, State.record, State.execute_trace, List.mem_append, List.mem_singleton] at he
    rcases he with he | rfl
    · exact (ht e he).trans (Nat.lt_succ_self _)
    · exact Nat.lt_succ_self _

theorem trace_steps_lt {m : Machine} {n : ℕ} (h : m.state.currentStep + n ≤ m.program.length)
    (ht : ∀ e ∈ m.state.trace, e.step < m.state.currentStep) :
    ∀ e ∈ (m.performTimes n .step).state.trace, e.step < m.state.currentStep + n := by
  induction n generalizing m with
  | zero => exact ht
  | succ n ih =>
    have hlt : m.state.currentStep < m.program.length := by omega
    have hc := currentStep_step hlt
    have hn : m.step.2.state.currentStep + n ≤ m.step.2.program.length := by rw [hc, step_program]; omega
    intro e he
    have := ih hn (trace_step_lt hlt ht) e he
    omega

/-- **What a run leaves that stops before the end**: a machine that is ready for statement `a`, with small counts. -/
theorem AtBeginning.interrupted {m : Machine} (h : m.AtBeginning) {a : ℕ} (ha : a < m.program.length)
    (hw : a < Text.bound64) : (m.runToCompletion a).2.Ready ∧ (m.runToCompletion a).2.state.IsWordSized := by
  have hl : m.state.currentStep + a < m.program.length := by rwa [h.pointer, Nat.zero_add]
  rw [h.ready.runToCompletion_eq_steps hl.le]
  refine ⟨h.ready.steps hl, ?_, fun e he => ?_⟩
  · rwa [currentStep_steps hl.le, h.pointer, Nat.zero_add]
  · have := trace_steps_lt hl.le (by simp [h.trace]) e he
    rw [h.pointer] at this
    omega

/-- a ready machine is restored as it is -/
theorem Ready.restored_snapshot {m : Machine} (h : m.Ready) : (fresh m.config).restored m.snapshot = m := by
  have hs : m.state.paused = m.state := by
    rcases h.status with hs | hs <;> simp [State.paused, hs]
  simp [restored, fresh, snapshot, hs]

end Machine

/-! ## Setups that go on -/

namespace Setup

/-- the same setup, but from a snapshot -/
def resuming (s : Setup) (path : String) : Setup :=
  { s with source := .snapshot path, cells := [], registers := [] }

/-- **A snapshot on file prepares the machine that it was made of**, if that machine was ready. -/
theorem prepare_resuming {s : Setup} {d : Directory} {c : Config} (hc : s.configIn d = .ok c) (hv : c.Valid)
    {m : Machine} (hm : Machine.Fitting c m) (hr : m.Ready) (hw : m.state.IsWordSized) {path : String}
    (hread : d.read path = .ok m.snapshot.fileText) : ∃ p, (s.resuming path).prepare d = .ok p ∧ p.machine = m := by
  have hfile : Snapshot.ofFile (d.read path) = .ok m.snapshot := by
    rw [hread]
    exact (Snapshot.ofText_fileText m.snapshot).trans (if_pos hw)
  have hrestore : (Machine.fresh c).restore m.snapshot = .ok m := by
    refine (Machine.restore_eq_ok_iff ..).2 ⟨hm.fits, ?_⟩
    rw [← hm.config, hr.restored_snapshot]
  obtain ⟨q, hq, rfl⟩ := (loaded_snapshot (s := s.resuming path) rfl).2 ⟨m.snapshot, hfile, hrestore⟩
  exact ⟨q, (prepare_eq_ok_iff ..).2 ⟨c, q, hc, hv, hq, rfl, rfl⟩, rfl⟩

end Setup

/-! ## Commands -/

/-- a run that can save its snapshot does so, and ends well -/
theorem runOutcome_saved {s : Setup} {d : Directory} {p : Prepared} (hp : s.prepare d = .ok p) {path : String}
    (hw : d.Writable path) (limit : ℕ) (trace : Bool) :
    ∃ d', d.write path (p.machine.runToCompletion limit).2.snapshot.fileText = .ok d' ∧
      (runOutcome d s limit trace (some path)).exit = 0 ∧ (runOutcome d s limit trace (some path)).files = d' := by
  obtain ⟨d', hd⟩ := hw.exists_write (p.machine.runToCompletion limit).2.snapshot.fileText
  refine ⟨d', hd, ?_⟩
  simp [runOutcome, hp, Outcome.saving, Outcome.ofPrepared, Outcome.say, Execution.after, hd]

/-- **An interrupted run resumes exactly.** Take any setup with a program text that is accepted: text, configuration,
cells and registers. A command runs `a` statements of it, fewer than it has, and saves a snapshot. A second one restores
that snapshot under the same configuration, runs at most `b` statements and saves again. All commands end well, and what
the second one has saved is, byte for byte, what a single run of at most `a + b` statements saves. The first snapshot
may go anywhere where a text can be put, except over the configuration that the second command is to read. -/
theorem interrupted_run_resumes {d : Directory} {s : Setup} {program : String} (hs : s.source = .program program)
    {p : Prepared} (hp : s.prepare d = .ok p) {a b : ℕ} (ha : a < p.machine.program.length)
    (hab : a + b < Text.bound64) {half whole : String} (hh : d.Writable half) (hw : d.Writable whole)
    (hc : ∀ path ∈ s.config, d.find (.ofText path) ≠ d.target (.ofText half)) (t₁ t₂ t₃ : Bool) (keys : List Key) :
    let first := (Command.run s a t₁ (some half)).perform d keys
    let second := (Command.run (s.resuming half) b t₂ (some whole)).perform first.files keys
    let single := (Command.run s (a + b) t₃ (some whole)).perform d keys
    first.exit = 0 ∧ second.exit = 0 ∧ single.exit = 0 ∧
      second.files.read whole = single.files.read whole ∧
      single.files.read whole = .ok (p.machine.runToCompletion (a + b)).2.snapshot.fileText := by
  intro first second single
  obtain ⟨c, hconfig, hv, hbegin, hfit⟩ := Setup.prepared_program hs hp
  obtain ⟨hready, hsized⟩ := hbegin.interrupted ha (by omega)
  have hjoined := hbegin.ready.runToCompletion_add b (a := a) (by rwa [hbegin.pointer, Nat.zero_add])
  -- the first command
  obtain ⟨d₁, hd₁, hexit₁, hfiles₁⟩ := runOutcome_saved hp hh a t₁
  -- the second one, which finds the machine that the first one left
  obtain ⟨q, hq, hqm⟩ := Setup.prepare_resuming (Setup.configIn_write hconfig hd₁ hc) hv
    ((Machine.fitting_kept c).runToCompletion a hfit) hready hsized (Directory.read_write hd₁)
  obtain ⟨d₂, hd₂, hexit₂, hfiles₂⟩ := runOutcome_saved hq (hw.write hd₁) b t₂
  rw [hqm, hjoined] at hd₂
  -- and the single one
  obtain ⟨d₃, hd₃, hexit₃, hfiles₃⟩ := runOutcome_saved hp hw (a + b) t₃
  have hfirst : first.files = d₁ := hfiles₁
  have hsecond : second = runOutcome d₁ (s.resuming half) b t₂ (some whole) := by
    rw [← hfirst]
    rfl
  have hread₂ : second.files.read whole = .ok (p.machine.runToCompletion (a + b)).2.snapshot.fileText := by
    rw [hsecond, hfiles₂, Directory.read_write hd₂]
  have hread₃ : single.files.read whole = .ok (p.machine.runToCompletion (a + b)).2.snapshot.fileText := by
    show (runOutcome d s (a + b) t₃ (some whole)).files.read whole = _
    rw [hfiles₃, Directory.read_write hd₃]
  exact ⟨hexit₁, hsecond ▸ hexit₂, hexit₃, hread₂.trans hread₃.symm, hread₃⟩

/-- a program, a configuration, and a folder for what is saved -/
def shelf : Directory :=
  .ofTexts [
    ("sum.txt", "A <- R0 ; both operands\nB <- R1\n\nALU <- A + B\nnothing\nR0 <- ALU\nMEM[MAR] <- MDR"),
    ("small.json", "\x7b\"memorySize\": 4, \"registerCount\": 2\x7d"),
    ("runs/old.json", "")]

/-- the program with two registers and a cell set, under that configuration -/
def sumSetup : Setup where
  source := .program "sum.txt"
  config := some "small.json"
  cells := [(3, 9)]
  registers := [(0, 200), (1, 100)]

theorem interrupted_run_resumes_sum :
    let half := "runs/half.json"
    let whole := "./runs/../whole.json"
    let three : Command := .run sumSetup 3 false (some half)
    let rest : Command := .run (sumSetup.resuming half) 9 false (some whole)
    let single : Command := .run sumSetup 12 true (some whole)
    Command.ofArguments ["run", "sum.txt", "--config", "small.json", "--poke", "3=9", "--reg", "0=200", "--reg",
      "1=100", "--max-steps", "3", "--export", half] = .ok three ∧
    Command.ofArguments ["run", "--import", half, "--config", "small.json", "--max-steps", "9", "--export", whole] =
      .ok rest ∧
    (∃ p, sumSetup.prepare shelf = .ok p ∧ 3 < p.machine.program.length) ∧ 3 + 9 < Text.bound64 ∧
    shelf.Writable half ∧ shelf.Writable whole ∧
    (∀ path ∈ sumSetup.config, shelf.find (.ofText path) ≠ shelf.target (.ofText half)) ∧
    (three.perform shelf []).exit = 0 ∧ (rest.perform (three.perform shelf []).files []).exit = 0 ∧
    (rest.perform (three.perform shelf []).files []).files.read whole = (single.perform shelf []).files.read whole := by
  intro half whole three rest single
  have hlength : (sumSetup.prepare shelf).toOption.map (fun p => p.machine.program.length) = some 6 := by
    decide +kernel
  cases hp : sumSetup.prepare shelf with
  | error e =>
    rw [hp] at hlength
    cases hlength
  | ok p =>
    rw [hp] at hlength
    have hl : p.machine.program.length = 6 := Option.some.inj hlength
    have ha : 3 < p.machine.program.length := by omega
    have hh : shelf.Writable half := ⟨["runs", "half.json"], by decide +kernel⟩
    have hw : shelf.Writable whole := ⟨["whole.json"], by decide +kernel⟩
    have hc : ∀ path ∈ sumSetup.config, shelf.find (.ofText path) ≠ shelf.target (.ofText half) := by
      intro path hpath
      cases hpath
      decide +kernel
    obtain ⟨hthree, hrest, -, hfiles, -⟩ :=
      interrupted_run_resumes rfl hp ha (show 3 + 9 < Text.bound64 by decide) hh hw hc false false true []
    exact ⟨by decide +kernel, by decide +kernel, ⟨p, rfl, ha⟩, by decide, hh, hw, hc, hthree, hrest, hfiles⟩

end ByteMachine
