/-
What every operation of a machine keeps.

The operations come down to ten changes: loading a program or a preset, one step, starting, pausing, resetting, three
ways of seeding, and restoring a snapshot. Ticks, toggles and bounded runs are made of steps, starts and pauses. `Kept`
asks of a property that each change keeps it, some of them only where a run allows them at all; then each operation
keeps it, and so does every run.

Contents:
- frame lemmas: what executing a micro-operation leaves as it is;
- `Op.isLoad`, `Op.continues`, `Op.snapshot?`: kinds of operations;
- `load_eq_ok_iff`, `loadPreset_eq_ok_iff`, `storeMemory_eq_ok_iff`: what a change does when it is not refused;
- `step_cases`: the two things that a step can do, `of_step_restarted` and `of_step_executed`: told apart by the outcome;
- `Kept`: the changes that have to be looked at;
- `Homegrown`: machines that import nothing but what such machines have exported.

Main statements: `Kept.perform`, `Kept.performAll` and `Homegrown.keeps`.
-/
import Mathlib.Tactic
import ByteMachine.Machine.Op
import ByteMachine.Proofs.Snapshot.Check

namespace ByteMachine

/-! ## What executing leaves as it is -/

namespace State

@[simp] theorem execute_size (n : ℕ) (op : MicroOp) (s : State) :
    (s.execute n op).memory.size = s.memory.size := by
  cases op <;> simp [execute, latchAlu]

@[simp] theorem execute_count (n : ℕ) (op : MicroOp) (s : State) :
    (s.execute n op).registers.count = s.registers.count := by
  cases op <;> simp [execute, latchAlu, Registers.count, Registers.advancePc, Registers.write]

@[simp] theorem execute_currentStep (n : ℕ) (op : MicroOp) (s : State) :
    (s.execute n op).currentStep = s.currentStep := by
  cases op <;> rfl

@[simp] theorem execute_trace (n : ℕ) (op : MicroOp) (s : State) : (s.execute n op).trace = s.trace := by
  cases op <;> rfl

@[simp] theorem execute_status (n : ℕ) (op : MicroOp) (s : State) : (s.execute n op).status = s.status := by
  cases op <;> rfl

end State

@[simp] theorem Registers.count_assign (r : Registers) (name : NamedRegister) (b : UInt8) :
    (r.assign name b).count = r.count := by
  cases name <;> rfl

@[simp] theorem Registers.count_zeroed (n : ℕ) : (Registers.zeroed n).count = n := by
  simp [Registers.zeroed, Registers.count]

theorem Program.statement?_eq_none_iff (p : Program) (i : ℕ) : p.statement? i = none ↔ p.length ≤ i :=
  List.getElem?_eq_none_iff

theorem Program.lt_length_of_statement? {p : Program} {i : ℕ} {s : Statement} (h : p.statement? i = some s) :
    i < p.length :=
  (List.getElem?_eq_some_iff.1 h).1

theorem Program.isEmpty_eq_false_iff (p : Program) : p.isEmpty = false ↔ 0 < p.length := by
  simp [Program.isEmpty, Program.length, List.length_pos_iff]

theorem Preset.mem_of_find? {name : String} {p : Preset} (h : Preset.find? name = some p) : p ∈ Preset.all := by
  unfold Preset.find? at h
  exact List.mem_of_find?_eq_some h

/-- no preset is empty -/
theorem Preset.length_program_pos {p : Preset} (h : p ∈ Preset.all) : 0 < p.program.length := by
  simp only [Preset.all, List.mem_cons, List.not_mem_nil, or_false] at h
  rcases h with rfl | rfl | rfl <;> decide

/-! ## Kinds of operations -/

namespace Op

/-- does it load a program? -/
def isLoad : Op → Bool
  | .load _ | .loadSource _ | .loadPreset _ => true
  | _ => false

/-- does it go on with the trace? Loads, resets and imports do not -/
def continues : Op → Bool
  | .load _ | .loadSource _ | .loadPreset _ | .reset | .restore _ | .restoreText _ => false
  | _ => true

/-- the snapshot that it imports; a text that is no snapshot imports nothing -/
def snapshot? : Op → Option Snapshot
  | .restore s => some s
  | .restoreText text => (Snapshot.ofText text).toOption
  | _ => none

theorem continues_of_isLoad {op : Op} (h : op.isLoad = true) : op.continues = false := by
  cases op with
  | load | loadSource | loadPreset => rfl
  | _ => cases h

end Op

namespace Machine

/-! ## The changes -/

theorem withConfig_eq_ok_iff (c : Config) (m : Machine) : withConfig c = .ok m ↔ c.Valid ∧ m = fresh c := by
  unfold withConfig
  cases hv : c.validate with
  | error e =>
    have hn : ¬c.Valid := fun h => by
      rw [(c.validate_eq_ok_iff c).2 ⟨rfl, h⟩] at hv
      cases hv
    simp [Except.map, hn]
  | ok d =>
    obtain ⟨rfl, h⟩ := (c.validate_eq_ok_iff d).1 hv
    simp [Except.map, h, eq_comm]

theorem load_eq_ok_iff (m m' : Machine) (p : Program) :
    m.load p = .ok m' ↔ 0 < p.length ∧ m' = { m with program := p, preset := none, state := m.state.rewind } := by
  rw [← p.isEmpty_eq_false_iff]
  unfold load
  cases p.isEmpty with
  | true => simp
  | false => simp [eq_comm]

theorem loadPreset_eq_ok_iff (m m' : Machine) (name : String) :
    m.loadPreset name = .ok m' ↔
      ∃ p, Preset.find? name = some p ∧
        m' = { m with program := p.program, preset := some p.name, state := m.state.rewind } := by
  unfold loadPreset
  cases hf : Preset.find? name with
  | none => simp
  | some p =>
    have hl := (m.load_eq_ok_iff _ p.program).2 ⟨Preset.length_program_pos (Preset.mem_of_find? hf), rfl⟩
    simp [hl, Except.map, eq_comm]

theorem storeMemory_eq_ok_iff (m m' : Machine) (address : ℕ) (b : UInt8) :
    m.storeMemory address b = .ok m' ↔ m.state.memory.holds address = true ∧ m' = m.writeMemory address b := by
  unfold storeMemory Memory.store
  split_ifs with h
  · simp [Except.map, h, writeMemory, eq_comm]
  · simp [Except.map, h]

/-- a step goes back to the first statement, or executes the one at the pointer -/
theorem step_cases (m : Machine) :
    (m.program.length ≤ m.state.currentStep ∧ m.step = (.restarted, { m with state := m.state.restart })) ∨
    ∃ s, m.program.statement? m.state.currentStep = some s ∧ m.state.currentStep < m.program.length ∧
      let after := m.state.execute m.config.memorySize s.op
      let entry := ⟨m.state.currentStep, s.source, after.remark s.op⟩
      m.step = (.executed entry, { m with state := after.record entry m.program.length }) := by
  cases hs : m.program.statement? m.state.currentStep with
  | none => exact .inl ⟨(m.program.statement?_eq_none_iff _).1 hs, by simp [step, hs]⟩
  | some s => exact .inr ⟨s, rfl, Program.lt_length_of_statement? hs, by simp [step, hs]⟩

/-- a step that restarts has found no statement, and leaves the state restarted -/
theorem of_step_restarted {m : Machine} (h : m.step.1 = .restarted) :
    m.program.length ≤ m.state.currentStep ∧ m.step.2 = { m with state := m.state.restart } := by
  rcases m.step_cases with ⟨hle, hs⟩ | ⟨s, -, -, hs⟩
  · exact ⟨hle, congrArg Prod.snd hs⟩
  · rw [hs] at h
    cases h

/-- a step that executes has found a statement, and records it -/
theorem of_step_executed {m : Machine} {e : TraceEntry} (h : m.step.1 = .executed e) :
    ∃ s, m.program.statement? m.state.currentStep = some s ∧
      e = ⟨m.state.currentStep, s.source, (m.state.execute m.config.memorySize s.op).remark s.op⟩ ∧
      m.step.2 = { m with state := (m.state.execute m.config.memorySize s.op).record e m.program.length } := by
  rcases m.step_cases with ⟨-, hs⟩ | ⟨s, hget, -, hs⟩
  · rw [hs] at h
    cases h
  · rw [hs] at h
    cases h
    exact ⟨s, hget, rfl, congrArg Prod.snd hs⟩

@[simp] theorem step_program (m : Machine) : m.step.2.program = m.program := by
  rcases m.step_cases with ⟨-, hs⟩ | ⟨s, -, -, hs⟩
  · rw [hs]
  · rw [hs]

@[simp] theorem run_program (m : Machine) : m.run.program = m.program := by
  unfold run
  split_ifs
  · rfl
  · rfl

/-! ## Keeping a property -/

/-- each change keeps `P`; loads, resets, assignments and snapshots are looked at only where `A` allows them -/
structure Kept (A : Op → Prop) (P : Machine → Prop) : Prop where
  load : ∀ {op : Op} {m m' : Machine} {p : Program}, A op → op.isLoad = true → m.load p = .ok m' → P m → P m'
  loadPreset : ∀ {m m' : Machine} {name : String}, A (.loadPreset name) → m.loadPreset name = .ok m' → P m → P m'
  step : ∀ {m : Machine}, P m → P m.step.2
  run : ∀ {m : Machine}, P m → P m.run
  pause : ∀ {m : Machine}, P m → P m.pause
  reset : ∀ {m : Machine}, A .reset → P m → P m.reset
  setRegister : ∀ {m : Machine} (n : ℕ) (b : UInt8), P m → P (m.setRegister n b)
  writeMemory : ∀ {m : Machine} (address : ℕ) (b : UInt8), P m → P (m.writeMemory address b)
  assign : ∀ {m : Machine} {name : NamedRegister} {b : UInt8}, A (.assign name b) → P m → P (m.assign name b)
  restore : ∀ {m m' : Machine} {s : Snapshot}, A (.restore s) → m.restore s = .ok m' → P m → P m'
  /-- a text is allowed only if the snapshot in it is -/
  text : ∀ {text : String} {s : Snapshot}, A (.restoreText text) → Snapshot.ofText text = .ok s → A (.restore s)

namespace Kept

variable {A : Op → Prop} {P : Machine → Prop}

theorem runFor (k : Kept A P) (limit : ℕ) {m : Machine} (h : P m) : P (m.runFor limit).2 := by
  induction limit generalizing m with
  | zero => exact h
  | succ limit ih =>
    unfold Machine.runFor
    split_ifs
    · exact ih (k.step h)
    · exact h

theorem runToCompletion (k : Kept A P) (limit : ℕ) {m : Machine} (h : P m) : P (m.runToCompletion limit).2 := by
  unfold Machine.runToCompletion
  split_ifs
  · exact h
  · exact k.pause (k.runFor limit (k.run h))

theorem orRefuse {ε : Type} {m : Machine} {toError : ε → OpError} {r : Except ε Machine} (h : P m)
    (hr : ∀ m', r = .ok m' → P m') : P (m.orRefuse toError r).2 := by
  cases r with
  | error e => exact h
  | ok m' => exact hr m' rfl

/-- **One operation keeps the property**, also when it is refused. -/
theorem perform (k : Kept A P) {m : Machine} {op : Op} (ha : A op) (h : P m) : P (m.perform op).2 := by
  cases op with
  | load texts => exact orRefuse h fun m' hm => k.load ha rfl hm h
  | loadSource source =>
    refine orRefuse h fun m' hm => ?_
    unfold Machine.loadSource at hm
    split at hm
    · cases hm
    · exact k.load ha rfl hm h
  | loadPreset name => exact orRefuse h fun m' hm => k.loadPreset ha hm h
  | step => exact k.step h
  | tick =>
    show P m.tick.2
    unfold Machine.tick
    split_ifs
    · exact k.step h
    · exact h
  | run => exact k.run h
  | pause => exact k.pause h
  | toggle =>
    show P m.toggle
    unfold Machine.toggle
    split_ifs
    · exact k.pause h
    · exact k.run h
  | runToCompletion limit => exact k.runToCompletion limit h
  | reset => exact k.reset ha h
  | setRegister n b => exact k.setRegister n b h
  | writeMemory address b => exact k.writeMemory address b h
  | storeMemory address b =>
    refine orRefuse h fun m' hm => ?_
    obtain ⟨-, rfl⟩ := (m.storeMemory_eq_ok_iff m' address b).1 hm
    exact k.writeMemory address b h
  | assign name b => exact k.assign ha h
  | restore s => exact orRefuse h fun m' hm => k.restore ha hm h
  | restoreText text =>
    refine orRefuse h fun m' hm => ?_
    unfold Machine.restoreText at hm
    split at hm
    · cases hm
    · next s hs => exact k.restore (k.text ha hs) hm h

/-- **A whole run keeps the property**, whatever its operations are and in whatever order they come. -/
theorem performAll (k : Kept A P) {m : Machine} {ops : List Op} (ha : ∀ op ∈ ops, A op) (h : P m) :
    P (m.performAll ops) := by
  induction ops generalizing m with
  | nil => exact h
  | cons op ops ih =>
    rw [performAll_cons]
    exact ih (fun o ho => ha o (List.mem_cons_of_mem op ho)) (k.perform (ha op List.mem_cons_self) h)

end Kept

/-! ## Machines without foreign snapshots -/

/-- machines reached by operations that `A` allows, where an imported snapshot is the export of such a machine -/
inductive Homegrown (A : Op → Prop) : Machine → Prop
  | start {c : Config} {m : Machine} (h : withConfig c = .ok m) : Homegrown A m
  | perform {m : Machine} {op : Op} (hm : Homegrown A m) (ha : A op) (hs : op.snapshot? = none) :
      Homegrown A (m.perform op).2
  | imported {m other : Machine} {op : Op} (hm : Homegrown A m) (ho : Homegrown A other)
      (hs : op.snapshot? = some other.snapshot) : Homegrown A (m.perform op).2

/-- what a step may assume of its operation: an import comes from a machine that has the property, and anything else
is allowed -/
def Allowed (A : Op → Prop) (P : Machine → Prop) (op : Op) : Prop :=
  match op.snapshot? with
  | none => A op
  | some s => ∃ other : Machine, P other ∧ s = other.snapshot

theorem allowed_restore_of_text {A : Op → Prop} {P : Machine → Prop} {text : String} {s : Snapshot}
    (h : Allowed A P (.restoreText text)) (hs : Snapshot.ofText text = .ok s) : Allowed A P (.restore s) := by
  simpa [Allowed, Op.snapshot?, hs, Except.toOption] using h

theorem Homegrown.performAll {A : Op → Prop} {m : Machine} (hm : Homegrown A m) {ops : List Op}
    (h : ∀ op ∈ ops, A op ∧ op.snapshot? = none) : Homegrown A (m.performAll ops) := by
  induction ops generalizing m with
  | nil => exact hm
  | cons op ops ih =>
    obtain ⟨ha, hs⟩ := h op List.mem_cons_self
    exact ih (hm.perform ha hs) fun o ho => h o (List.mem_cons_of_mem op ho)

/-- **A property of fresh machines that every change keeps holds of all machines without foreign snapshots.** -/
theorem Homegrown.keeps {A : Op → Prop} {P : Machine → Prop} (hf : ∀ {c : Config}, c.Valid → P (fresh c))
    (k : Kept (Allowed A P) P) {m : Machine} (h : Homegrown A m) : P m := by
  induction h with
  | start h =>
    obtain ⟨hv, rfl⟩ := (withConfig_eq_ok_iff ..).1 h
    exact hf hv
  | perform hm ha hs ih =>
    refine k.perform ?_ ih
    simpa only [Allowed, hs] using ha
  | @imported m other op hm ho hs ih iho =>
    refine k.perform ?_ ih
    simpa only [Allowed, hs] using ⟨other, iho, rfl⟩

end Machine

end ByteMachine
