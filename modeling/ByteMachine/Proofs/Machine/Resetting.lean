/-
A reset gives back a fresh machine.

Resetting clears what is there: so many registers and cells as the machine has. No operation changes these numbers, so the
state is that of a fresh machine with the same configuration, whatever was done before. Program and preset name stay. A
fresh machine that has loaded the same program differs in the preset name alone, and that name is a label: nothing that
can be done to a machine reads it. So both answer every operation alike, and stay alike but for the label.

Contents:
- `named`: the machine under another preset name;
- `Renamed`: the same reply, and the same machine but for the name;
- `replies`: what a sequence of operations answers.

Main statements:
- `State.reset_eq_initial`: a state of the configured sizes is reset to the initial one;
- `perform_named`, `replies_named`: the name changes no operation and no run;
- `reset_makes_fresh`: a reset machine cannot be told from a fresh one with the same program, but for the name.
-/
import Mathlib.Tactic
import ByteMachine.Proofs.Machine.Fitting

namespace ByteMachine

/-- a reset clears every part, so the sizes alone tell what it leaves -/
theorem State.reset_eq_initial {s : State} {c : Config} (hm : s.memory.size = c.memorySize)
    (hr : s.registers.count = c.registerCount) : s.reset = .initial c := by
  unfold reset initial Memory.clear Registers.reset
  rw [hm, hr]

namespace Machine

/-! ## The preset name -/

/-- the machine under another preset name, or under none -/
def named (m : Machine) (preset : Option String) : Machine :=
  { m with preset }

theorem step_named (m : Machine) (preset : Option String) :
    (m.named preset).step = (m.step.1, m.step.2.named preset) := by
  have hsame : (m.named preset).program.statement? (m.named preset).state.currentStep =
      m.program.statement? m.state.currentStep := rfl
  unfold step
  rw [hsame]
  cases m.program.statement? m.state.currentStep with
  | none => rfl
  | some s => rfl

theorem run_named (m : Machine) (preset : Option String) : (m.named preset).run = m.run.named preset := by
  unfold run
  show (if m.program.isEmpty then m.named preset else _) = _
  split_ifs
  · rfl
  · rfl

theorem pause_named (m : Machine) (preset : Option String) : (m.named preset).pause = m.pause.named preset := by
  rw [pause_eq, pause_eq]
  rfl

theorem toggle_named (m : Machine) (preset : Option String) : (m.named preset).toggle = m.toggle.named preset := by
  unfold toggle
  rw [pause_named, run_named]
  show (if m.isRunning then _ else _) = _
  split_ifs
  · rfl
  · rfl

theorem tick_named (m : Machine) (preset : Option String) :
    (m.named preset).tick = (m.tick.1, m.tick.2.named preset) := by
  unfold tick
  rw [step_named]
  show (if m.isRunning then _ else _) = _
  split_ifs
  · rfl
  · rfl

theorem runFor_named (limit : ℕ) (m : Machine) (preset : Option String) :
    (m.named preset).runFor limit = ((m.runFor limit).1, (m.runFor limit).2.named preset) := by
  induction limit generalizing m with
  | zero => rfl
  | succ limit ih =>
    unfold runFor
    rw [step_named]
    simp only [ih]
    show (if m.isRunning then _ else _) = _
    split_ifs
    · rfl
    · rfl

theorem runToCompletion_named (m : Machine) (preset : Option String) (limit : ℕ) :
    (m.named preset).runToCompletion limit =
      ((m.runToCompletion limit).1, (m.runToCompletion limit).2.named preset) := by
  unfold runToCompletion
  rw [run_named, runFor_named]
  split_ifs
  · rfl
  · simp only [pause_named]

theorem storeMemory_named (m : Machine) (preset : Option String) (address : ℕ) (b : UInt8) :
    (m.named preset).storeMemory address b = (m.storeMemory address b).map fun d => d.named preset := by
  unfold storeMemory
  show (m.state.memory.store address b).map _ = _
  cases m.state.memory.store address b with
  | error e => rfl
  | ok memory => rfl

/-- the same reply, and the same machine but for the preset name -/
def Renamed (r r' : Reply × Machine) : Prop :=
  ∃ preset, r' = (r.1, r.2.named preset)

/-- what replaces the program brings a name of its own, and a refusal keeps the old one -/
theorem orRefuse_named {ε : Type} (m : Machine) (preset : Option String) (toError : ε → OpError)
    (r : Except ε Machine) : Renamed (m.orRefuse toError r) ((m.named preset).orRefuse toError r) := by
  cases r with
  | error e => exact ⟨preset, rfl⟩
  | ok d => exact ⟨d.preset, rfl⟩

/-- **The preset name changes no operation**: same reply, same machine but for the name. -/
theorem perform_named (m : Machine) (preset : Option String) (op : Op) :
    Renamed (m.perform op) ((m.named preset).perform op) := by
  cases op with
  | load texts => exact m.orRefuse_named preset .load (m.loadTexts texts)
  | loadSource source => exact m.orRefuse_named preset .load (m.loadSource source)
  | loadPreset name => exact m.orRefuse_named preset .load (m.loadPreset name)
  | restore s => exact m.orRefuse_named preset .snapshot (m.restore s)
  | restoreText text => exact m.orRefuse_named preset .snapshot (m.restoreText text)
  | storeMemory address b =>
    show Renamed (m.orRefuse .address (m.storeMemory address b))
      ((m.named preset).orRefuse .address ((m.named preset).storeMemory address b))
    rw [storeMemory_named]
    cases m.storeMemory address b with
    | error e => exact ⟨preset, rfl⟩
    | ok d => exact ⟨preset, rfl⟩
  | step => exact ⟨preset, congrArg (fun r => (Reply.stepped r.1, r.2)) (m.step_named preset)⟩
  | tick => exact ⟨preset, congrArg (fun r => (Reply.ticked r.1, r.2)) (m.tick_named preset)⟩
  | run => exact ⟨preset, congrArg (fun d : Machine => (Reply.answer d.isRunning, d)) (m.run_named preset)⟩
  | pause => exact ⟨preset, congrArg (fun d : Machine => (Reply.answer d.isRunning, d)) (m.pause_named preset)⟩
  | toggle => exact ⟨preset, congrArg (fun d : Machine => (Reply.answer d.isRunning, d)) (m.toggle_named preset)⟩
  | runToCompletion limit =>
    exact ⟨preset, congrArg (fun r => (Reply.executed r.1 r.2.isCompleted, r.2)) (m.runToCompletion_named preset limit)⟩
  | reset | setRegister | writeMemory | assign => exact ⟨preset, rfl⟩

/-- what a sequence of operations answers -/
def replies : Machine → List Op → List Reply
  | _, [] => []
  | m, op :: ops => (m.perform op).1 :: replies (m.perform op).2 ops

/-- **The preset name changes no run**: same replies, same machine but for the name. -/
theorem replies_named (m : Machine) (preset : Option String) (ops : List Op) :
    (m.named preset).replies ops = m.replies ops ∧
      ∃ preset', (m.named preset).performAll ops = (m.performAll ops).named preset' := by
  induction ops generalizing m preset with
  | nil => exact ⟨rfl, preset, rfl⟩
  | cons op ops ih =>
    obtain ⟨preset', hop⟩ := m.perform_named preset op
    obtain ⟨hreplies, hlast⟩ := ih (m.perform op).2 preset'
    unfold replies
    rw [performAll_cons, performAll_cons, hop]
    exact ⟨congrArg _ hreplies, hlast⟩

/-! ## Reset -/

/-- **A reset gives back a fresh machine.** Let a machine with a valid configuration be driven by any operations. A reset
leaves the initial state of that configuration, and keeps configuration, program and preset name. If there is a program,
a fresh machine loads it, and has then the same program and state. From there both give the same replies to whatever is
done to them, and have the same configuration, program and state after it. -/
theorem reset_makes_fresh (c : Config) (start : Machine) (h : withConfig c = .ok start) (ops : List Op) :
    let m := start.performAll ops
    (m.reset.state = .initial c ∧ m.reset.program = m.program ∧ m.reset.preset = m.preset ∧
      m.reset.config = m.config) ∧
    (0 < m.program.length → ∃ d, start.load m.program = .ok d ∧
      d.program = m.reset.program ∧ d.state = m.reset.state ∧
      ∀ later : List Op,
        let d' := d.performAll later
        let m' := m.reset.performAll later
        m.reset.replies later = d.replies later ∧
          m'.config = d'.config ∧ m'.program = d'.program ∧ m'.state = d'.state) := by
  intro m
  have hm : Fitting c m := fitting_performAll h ops
  have hreset : m.state.reset = .initial c := State.reset_eq_initial hm.fits.memory hm.fits.registers
  obtain ⟨-, rfl⟩ := (withConfig_eq_ok_iff c start).1 h
  refine ⟨⟨hreset, rfl, rfl, rfl⟩, fun hL => ?_⟩
  -- the fresh machine with the program, which the reset one is under its own name
  let d : Machine := { fresh c with program := m.program }
  have hload : (fresh c).load m.program = .ok d := (load_eq_ok_iff ..).2 ⟨hL, rfl⟩
  have hnamed : m.reset = d.named m.preset := by
    unfold reset
    rw [hreset, hm.config]
    rfl
  refine ⟨d, hload, rfl, hreset.symm, fun later => ?_⟩
  obtain ⟨hreplies, preset', hlast⟩ := d.replies_named m.preset later
  rw [hnamed]
  refine ⟨hreplies, ?_⟩
  rw [hlast]
  exact ⟨rfl, rfl, rfl⟩

/-- a machine that has imported a snapshot with registers, cells, flags, a trace and a preset name of its own -/
def worn : List Op :=
  let state : State :=
    { registers := { general := [1, 2], pc := 3, ir := 4, mar := 5, mdr := 6 }
      memory := ⟨[7, 8, 9, 10]⟩
      busA := 11
      busB := 12
      aluResult := 13
      aluFlags := ⟨true, true, true, true⟩
      flags := ⟨true, true, true, true⟩
      currentStep := 2
      trace := [⟨1, "?", ""⟩]
      status := .completed }
  [.loadPreset "load-store", .runToCompletion 3,
    .restore ⟨.ofTexts ["PC ← PC + 1", "A ← R[1]"], state, some "own"⟩, .step, .run]

theorem reset_makes_fresh_worn :
    let m := (fresh small).performAll worn
    let later : List Op := [.setRegister 1 5, .step, .runToCompletion 1, .loadPreset "none", .tick, .step]
    withConfig small = .ok (fresh small) ∧ 0 < m.program.length ∧ m.state.aluResult = 13 ∧
    m.reset.preset = some "own" ∧ m.reset.state = .initial small ∧
    ∃ d, (fresh small).load m.program = .ok d ∧ m.reset.replies later = d.replies later ∧
      (m.reset.performAll later).state = (d.performAll later).state ∧
      (m.reset.performAll later).preset = some "own" ∧ (d.performAll later).preset = none := by
  intro m later
  have h : withConfig small = .ok (fresh small) := rfl
  have hv : 0 < m.program.length ∧ m.state.aluResult = 13 ∧ m.preset = some "own" ∧
      (m.reset.performAll later).preset = some "own" := by decide +kernel
  obtain ⟨hL, hresult, hpreset, hkept⟩ := hv
  obtain ⟨⟨hstate, -, hname, -⟩, hfresh⟩ := reset_makes_fresh small (fresh small) h worn
  obtain ⟨d, hload, -, -, hlater⟩ := hfresh hL
  obtain ⟨hreplies, -, -, hsame⟩ := hlater later
  obtain ⟨-, rfl⟩ := (load_eq_ok_iff ..).1 hload
  exact ⟨h, hL, hresult, hname.trans hpreset, hstate, _, hload, hreplies, hsame, hkept, by decide +kernel⟩

end Machine

end ByteMachine
