/-
Sizes, pointer and trace of a machine stay within its configuration and its program.

A fresh machine has the sizes that its configuration asks for, and no operation changes them. What replaces the program
also moves the pointer to its beginning and empties the trace, except for a snapshot, and a snapshot is let in only if
it fits. So whatever was done to a machine, what it exports fits its own configuration.

Main statement: `performAll_fits`.
-/
import Mathlib.Tactic
import ByteMachine.Proofs.Machine.Kept

namespace ByteMachine.Machine

/-! ## The invariant -/

/-- the configuration is `c`, and what the machine exports fits it -/
structure Fitting (c : Config) (m : Machine) : Prop where
  config : m.config = c
  fits : m.snapshot.Fits c

theorem fitting_fresh (c : Config) : Fitting c (fresh c) where
  config := rfl
  fits := .of_beginning (Memory.size_zeroed c.memorySize) (Registers.count_zeroed c.registerCount) rfl rfl

namespace Fitting

variable {c : Config} {m : Machine}

theorem step (h : Fitting c m) : Fitting c m.step.2 := by
  rcases m.step_cases with ⟨-, hs⟩ | ⟨s, -, hlt, hs⟩
  · rw [hs]
    exact ⟨h.config, { h.fits with pointer := Nat.zero_le _ }⟩
  · rw [hs]
    refine ⟨h.config, ?_, ?_, ?_, ?_⟩ <;> simp only [snapshot, State.record]
    · rw [State.execute_size]
      exact h.fits.memory
    · rw [State.execute_count]
      exact h.fits.registers
    · rw [State.execute_currentStep]
      exact hlt
    · intro e he
      rw [State.execute_trace, List.mem_append, List.mem_singleton] at he
      rcases he with he | rfl
      · exact h.fits.trace e he
      · exact hlt

theorem run (h : Fitting c m) : Fitting c m.run := by
  unfold Machine.run
  split_ifs
  · exact h
  · refine ⟨h.config, { h.fits with pointer := ?_ }⟩
    show (if _ then 0 else m.state.currentStep) ≤ m.program.length
    split_ifs
    · exact Nat.zero_le _
    · exact h.fits.pointer

theorem pause (h : Fitting c m) : Fitting c m.pause := by
  rw [m.pause_eq]
  exact ⟨h.config, h.fits.paused⟩

/-- a restored machine fits because the snapshot was checked, whatever the machine was before -/
theorem restored (h : Fitting c m) {s : Snapshot} (hs : s.Fits m.config) : Fitting c (m.restored s) := by
  rw [h.config] at hs
  exact ⟨h.config, hs.paused⟩

end Fitting

/-- every change keeps the invariant, and any snapshot may be offered -/
theorem fitting_kept (c : Config) : Kept (fun _ => True) (Fitting c) where
  load _ _ hl h := by
    obtain ⟨-, rfl⟩ := (load_eq_ok_iff ..).1 hl
    exact ⟨h.config, .of_beginning h.fits.memory h.fits.registers rfl rfl⟩
  loadPreset _ hl h := by
    obtain ⟨p, -, rfl⟩ := (loadPreset_eq_ok_iff ..).1 hl
    exact ⟨h.config, .of_beginning h.fits.memory h.fits.registers rfl rfl⟩
  step := Fitting.step
  run := Fitting.run
  pause := Fitting.pause
  reset _ h := by
    have hm := (Memory.size_clear _).trans h.fits.memory
    have hr := (Registers.count_reset _).trans h.fits.registers
    exact ⟨h.config, .of_beginning hm hr rfl rfl⟩
  setRegister n b h := ⟨h.config, { h.fits with registers := (Registers.count_write ..).trans h.fits.registers }⟩
  writeMemory a b h := ⟨h.config, { h.fits with memory := (Memory.size_write ..).trans h.fits.memory }⟩
  assign _ h := ⟨h.config, { h.fits with registers := (Registers.count_assign ..).trans h.fits.registers }⟩
  restore _ hr h := by
    obtain ⟨hs, rfl⟩ := (restore_eq_ok_iff ..).1 hr
    exact h.restored hs
  text _ _ := trivial

/-- the invariant holds after every sequence of operations on a machine with a valid configuration -/
theorem fitting_performAll {c : Config} {start : Machine} (h : withConfig c = .ok start) (ops : List Op) :
    Fitting c (start.performAll ops) := by
  obtain ⟨-, rfl⟩ := (withConfig_eq_ok_iff c start).1 h
  exact (fitting_kept c).performAll (fun _ _ => trivial) (fitting_fresh c)

/-- **Sizes, pointer and trace stay in bounds.** After any operations on a machine with a valid configuration, refused
ones and arbitrary snapshots among them, memory and registers have the configured sizes, the pointer is at most the
length of the program, every trace entry names a statement of it, and what the machine exports passes the check. -/
theorem performAll_fits (c : Config) (start : Machine) (h : withConfig c = .ok start) (ops : List Op) :
    let m := start.performAll ops
    m.config = c ∧ m.state.memory.size = c.memorySize ∧ m.state.registers.count = c.registerCount ∧
      m.state.currentStep ≤ m.program.length ∧ (∀ e ∈ m.state.trace, e.step < m.program.length) ∧
      m.snapshot.check m.config = .ok () := by
  intro m
  have hm : Fitting c m := fitting_performAll h ops
  refine ⟨hm.config, hm.fits.memory, hm.fits.registers, hm.fits.pointer, hm.fits.trace, ?_⟩
  rw [hm.config, Snapshot.check_eq_ok_iff]
  exact hm.fits

/-- a configuration with few cells and registers -/
def small : Config where
  memorySize := 4
  registerCount := 2

/-- a long program gives way to a short one in the middle, a snapshot beyond its end is refused, and one that fits is
let in -/
def mixed : List Op :=
  let beyond : Snapshot := ⟨.ofTexts ["PC ← PC + 1"], { State.initial small with currentStep := 2 }, none⟩
  let near : Snapshot := ⟨.ofTexts ["A ← R[0]", "?"], { State.initial small with trace := [⟨1, "?", ""⟩] }, some "x"⟩
  [.loadPreset "load-store", .runToCompletion 4, .load [], .load ["PC ← PC + 1"], .step, .restore beyond, .restore near,
    .step, .toggle, .tick]

theorem performAll_fits_mixed :
    withConfig small = .ok (fresh small) ∧
    let m := (fresh small).performAll mixed
    m.config = small ∧ m.state.memory.size = 4 ∧ m.state.registers.count = 2 ∧
      m.state.currentStep ≤ m.program.length ∧ (∀ e ∈ m.state.trace, e.step < m.program.length) ∧
      m.snapshot.check m.config = .ok () := by
  have h : withConfig small = .ok (fresh small) := rfl
  exact ⟨h, performAll_fits small (fresh small) h mixed⟩

end ByteMachine.Machine
