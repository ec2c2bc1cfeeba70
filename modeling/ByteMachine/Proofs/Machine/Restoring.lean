/-
What a machine exports, every machine of its sizes can import, and both then go on alike.

The export fits the importing machine because it fits the exporting one and a check reads nothing of a configuration
but the two sizes. Its text is read back because its counts are bounded by the length of the program. And a step reads
nothing but program, state and memory size, so from then on the two machines cannot be told apart.

Main statements:
- `Twins.steps`: twins do the same at every step;
- `restoreText_exported`: the export of any machine makes a twin of any machine of its sizes.
-/
import Mathlib.Tactic
import ByteMachine.Proofs.Machine.Fitting
import ByteMachine.Proofs.Snapshot.Document

namespace ByteMachine

/-- the counts of a snapshot that fits are bounded by the length of its program -/
theorem Snapshot.Fits.isWordSized {s : Snapshot} {c : Config} (h : s.Fits c)
    (hl : s.program.length < Text.bound64) : s.state.IsWordSized :=
  ⟨h.pointer.trans_lt hl, fun e he => (h.trace e he).trans hl⟩

namespace Machine

theorem restoreText_text (m : Machine) {s : Snapshot} (h : s.state.IsWordSized) :
    m.restoreText s.text = m.restore s := by
  unfold restoreText
  rw [Snapshot.ofText_text, if_pos h]

/-! ## Twins -/

/-- the same program and the same state, over as many memory cells -/
structure Twins (m d : Machine) : Prop where
  program : d.program = m.program
  state : d.state = m.state
  memorySize : d.config.memorySize = m.config.memorySize

namespace Twins

variable {m d : Machine}

theorem step (h : Twins m d) : d.step.1 = m.step.1 ∧ Twins m.step.2 d.step.2 := by
  unfold Machine.step
  rw [h.program, h.state, h.memorySize]
  cases m.program.statement? m.state.currentStep with
  | none => exact ⟨rfl, rfl, rfl, h.memorySize⟩
  | some s => exact ⟨rfl, rfl, rfl, h.memorySize⟩

/-- **Twins do the same at every step**, and are twins after it. -/
theorem steps (h : Twins m d) (n : ℕ) : (d.steps n).1 = (m.steps n).1 ∧ Twins (m.steps n).2 (d.steps n).2 := by
  induction n generalizing m d with
  | zero => exact ⟨rfl, h⟩
  | succ n ih =>
    obtain ⟨ho, ht⟩ := h.step
    obtain ⟨hos, hts⟩ := ih ht
    exact ⟨congrArg₂ List.cons ho hos, hts⟩

end Twins

/-! ## Export and import -/

/-- **An export is imported faithfully.** Let a machine with a valid configuration be driven by any operations. Every
machine with as many cells and registers takes what it exports: it keeps its own configuration, it has program, state
and preset name of the paused exporter, and however many steps both then make, the outcomes and the states are the
same. The only condition is that the length of the program is a number of 64 bits, as that of every list in memory. -/
theorem restoreText_exported (c : Config) (start : Machine) (h : withConfig c = .ok start) (ops : List Op)
    (hl : (start.performAll ops).program.length < Text.bound64) (d : Machine)
    (hm : d.config.memorySize = c.memorySize) (hr : d.config.registerCount = c.registerCount) :
    let m := start.performAll ops
    ∃ d', d.restoreText m.snapshot.text = .ok d' ∧ d'.config = d.config ∧
      d'.program = m.pause.program ∧ d'.state = m.pause.state ∧ d'.preset = m.pause.preset ∧
      ∀ n, (d'.steps n).1 = (m.pause.steps n).1 ∧ (d'.steps n).2.state = (m.pause.steps n).2.state := by
  intro m
  have hf : Fitting c m := fitting_performAll h ops
  have hd : m.snapshot.Fits d.config := hf.fits.of_sizes hm hr
  refine ⟨d.restored m.snapshot, ?_, rfl, ?_⟩
  · rw [restoreText_text d (hf.fits.isWordSized hl)]
    exact (restore_eq_ok_iff _ _ _).2 ⟨hd, rfl⟩
  · rw [m.pause_eq]
    refine ⟨rfl, rfl, rfl, fun n => ?_⟩
    have ht : Twins { m with state := m.state.paused } (d.restored m.snapshot) :=
      ⟨rfl, rfl, by rw [hf.config]; exact hm⟩
    exact ⟨(ht.steps n).1, (ht.steps n).2.state⟩

/-- a machine is left running in the middle of its program -/
def underWay : List Op :=
  [.load ["A ← R[0]", " nothing \"at all\" ", "PC ← PC + 1"], .setRegister 0 7, .run, .tick]

/-- a machine with the sizes of `small`, another clock and a history of its own -/
def elsewhere : Machine :=
  (fresh { small with clockIntervalMs := 5 }).performAll [.load ["MAR ← PC"], .writeMemory 3 9, .step]

theorem restoreText_exported_underWay :
    let m := (fresh small).performAll underWay
    m.state.status = .running ∧ m.state.currentStep = 1 ∧ m.program.length < Text.bound64 ∧
    ∃ d', elsewhere.restoreText m.snapshot.text = .ok d' ∧ d'.config = elsewhere.config ∧
      d'.program = m.pause.program ∧ d'.state = m.pause.state ∧ d'.preset = m.pause.preset ∧
      ∀ n, (d'.steps n).1 = (m.pause.steps n).1 ∧ (d'.steps n).2.state = (m.pause.steps n).2.state := by
  intro m
  have hl : m.program.length < Text.bound64 := by decide
  refine ⟨by decide, by decide, hl, ?_⟩
  exact restoreText_exported small (fresh small) rfl underWay hl elsewhere (by decide) (by decide)

end Machine

end ByteMachine
