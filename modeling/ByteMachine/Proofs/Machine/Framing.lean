/-
What a run changes, and what has to be executed for it.

A state has eleven kinds of parts, and each kind is written by micro-operations of its own: a cell by a write to its
address, a general register by a transfer to it, the other registers, the buses, the result and the two sets of flags by
one kind of transfer each. Everything else that happens while a machine is driven moves the pointer and the status. So
whatever differs after a run was written by a statement that the run has executed, and a statement that finds no place to
write to leaves nothing but its entry in the trace.

Contents:
- `Part`, `State.get`: the parts of a state and what they hold;
- `MicroOp.WritesTo`: the parts that a micro-operation writes to, in the state that it finds;
- `MicroOp.IsIdle`: there is nothing to do, or no place to write to;
- `Op.drives`, `Executed`, `executions`: operations that drive a machine, and the statements that they execute;
- `Account`: a relation between two machines and what was executed in between that every run has, if every step has it;
- `Framed`: what a run leaves, explained by what it has executed.

Main statements:
- `State.get_execute`: a micro-operation changes no part but those that it writes to;
- `State.eq_of_get_eq`: parts and sizes are all there is to a state, but for trace, pointer and status;
- `Account.perform`, `Account.performAll`: an account that is right for each step is right for an operation and a run;
- `loads_of_isLoad`: a load does the same to every machine;
- `perform_of_isLoad`, `perform_storeMemory`: what some operations do that drive nothing;
- `framed_account`, `Framed.performAll`: a step is framed, and so is a whole run;
- `runs_change_what_they_write`: every part, with the micro-operations that alone can change it.
-/
import Mathlib.Tactic
import ByteMachine.Proofs.Machine.Completing
import ByteMachine.Proofs.Machine.Refusals

namespace ByteMachine

/-! ## Parts of a state -/

/-- a part of a state that statements write to -/
inductive Part
  | cell (address : ℕ)
  | register (n : ℕ)
  | pc
  | ir
  | mar
  | mdr
  | busA
  | busB
  | result
  | resultFlags
  | flags
  deriving DecidableEq

/-- the byte or the flags that a part holds -/
def State.get (s : State) : Part → UInt8 ⊕ Flags
  | .cell address => .inl (s.memory.read address)
  | .register n => .inl (s.registers.read n)
  | .pc => .inl s.registers.pc
  | .ir => .inl s.registers.ir
  | .mar => .inl s.registers.mar
  | .mdr => .inl s.registers.mdr
  | .busA => .inl s.busA
  | .busB => .inl s.busB
  | .result => .inl s.aluResult
  | .resultFlags => .inr s.aluFlags
  | .flags => .inr s.flags

namespace MicroOp

/-- does this micro-operation write to this part, in the state that it finds? Each part has writers of its own -/
def WritesTo (op : MicroOp) (s : State) : Part → Prop
  | .cell address => op = .memoryFromMdr ∧ s.registers.mar.toNat = address
  | .register n => op = .registerFromAlu n
  | .pc => op = .advancePc
  | .ir => op = .irFromMdr
  | .mar => op = .marFromPc
  | .mdr => op = .mdrFromMemory
  | .busA => ∃ n, op = .busAFromRegister n
  | .busB => ∃ n, op = .busBFromRegister n
  | .result | .resultFlags => op = .aluAdd ∨ op = .aluSub ∨ op = .aluAnd
  | .flags => op = .latchFlags

/-- a statement that is no transfer, or one that finds no place to write to -/
inductive IsIdle : MicroOp → State → Prop
  | unknown (text : String) (s : State) : IsIdle (.unknown text) s
  | noRegister {n : ℕ} {s : State} (h : s.registers.count ≤ n) : IsIdle (.registerFromAlu n) s
  | noCell {s : State} (h : s.memory.size ≤ s.registers.mar.toNat) : IsIdle .memoryFromMdr s

end MicroOp

namespace State

/-- an idle statement changes nothing at all -/
theorem execute_of_isIdle {op : MicroOp} {s : State} (h : op.IsIdle s) (n : ℕ) : s.execute n op = s := by
  cases h with
  | unknown => rfl
  | noRegister hle => rw [execute, Registers.write_of_count_le hle]
  | noCell hle => rw [execute, Memory.write_of_size_le hle]

/-- **A micro-operation changes no part but those that it writes to.** -/
theorem get_execute {op : MicroOp} {s : State} {part : Part} (h : ¬op.WritesTo s part) (n : ℕ) :
    (s.execute n op).get part = s.get part := by
  cases part with
  | cell address =>
    cases op with
    | memoryFromMdr =>
      have hread := s.memory.read_write address s.registers.mar.toNat s.registers.mdr
      have hne : ¬(address = s.registers.mar.toNat ∧ s.registers.mar.toNat < s.memory.size) :=
        fun hhere => h ⟨rfl, hhere.1.symm⟩
      rw [if_neg hne] at hread
      exact congrArg Sum.inl hread
    | _ => rfl
  | register k =>
    cases op with
    | registerFromAlu j =>
      have hread := s.registers.read_write k j s.aluResult
      have hne : ¬(k = j ∧ j < s.registers.count) := fun hhere => h (congrArg MicroOp.registerFromAlu hhere.1.symm)
      rw [if_neg hne] at hread
      exact congrArg Sum.inl hread
    | _ => rfl
  | pc | ir | mar | mdr | flags => cases op <;> first | rfl | exact absurd rfl h
  | busA | busB => cases op <;> first | rfl | exact absurd ⟨_, rfl⟩ h
  | result | resultFlags => cases op <;> first | rfl | exact absurd (by simp [MicroOp.WritesTo]) h

/-- what has changed was written, by a statement that was not idle -/
theorem writesTo_of_get_ne {op : MicroOp} {s : State} {n : ℕ} {part : Part}
    (h : (s.execute n op).get part ≠ s.get part) : op.WritesTo s part ∧ ¬op.IsIdle s := by
  constructor
  · by_contra hw
    exact h (get_execute hw n)
  · intro hidle
    rw [execute_of_isIdle hidle] at h
    exact h rfl

/-- recording a statement writes to no part -/
theorem get_record (s : State) (e : TraceEntry) (length : ℕ) (part : Part) :
    (s.record e length).get part = s.get part := by
  cases part <;> rfl

end State

/-! ### Parts are all there is -/

/-- two lists of one length that hold the same wherever they are read are the same -/
theorem eq_of_getD_eq {l l' : List UInt8} (hlength : l'.length = l.length) (h : ∀ i, l'.getD i 0 = l.getD i 0) :
    l' = l := by
  refine List.ext_getElem hlength fun i hi hi' => ?_
  simpa [List.getD_eq_getElem?_getD, hi, hi'] using h i

/-- **Parts and sizes are all there is to a state**, but for trace, pointer and status. -/
theorem State.eq_of_get_eq {s t : State} (hsize : t.memory.size = s.memory.size)
    (hcount : t.registers.count = s.registers.count) (h : ∀ part, t.get part = s.get part) :
    t = { s with currentStep := t.currentStep, trace := t.trace, status := t.status } := by
  have hcells : t.memory.cells = s.memory.cells := eq_of_getD_eq hsize fun a => Sum.inl_injective (h (.cell a))
  have hgeneral : t.registers.general = s.registers.general :=
    eq_of_getD_eq hcount fun n => Sum.inl_injective (h (.register n))
  have hpc : t.registers.pc = s.registers.pc := Sum.inl_injective (h .pc)
  have hir : t.registers.ir = s.registers.ir := Sum.inl_injective (h .ir)
  have hmar : t.registers.mar = s.registers.mar := Sum.inl_injective (h .mar)
  have hmdr : t.registers.mdr = s.registers.mdr := Sum.inl_injective (h .mdr)
  have hbusA : t.busA = s.busA := Sum.inl_injective (h .busA)
  have hbusB : t.busB = s.busB := Sum.inl_injective (h .busB)
  have hresult : t.aluResult = s.aluResult := Sum.inl_injective (h .result)
  have hresultFlags : t.aluFlags = s.aluFlags := Sum.inr_injective (h .resultFlags)
  have hflags : t.flags = s.flags := Sum.inr_injective (h .flags)
  rcases s with ⟨⟨_, _, _, _, _⟩, ⟨_⟩, _, _, _, _, _, _, _, _⟩
  rcases t with ⟨⟨_, _, _, _, _⟩, ⟨_⟩, _, _, _, _, _, _, _, _⟩
  simp_all

/-! ## What a run executes -/

/-- does it drive the machine? Such an operation loads, seeds, resets and imports nothing -/
def Op.drives : Op → Bool
  | .step | .tick | .run | .pause | .toggle | .runToCompletion _ => true
  | _ => false

/-- an executed statement, with the state that it found -/
structure Executed where
  found : State
  statement : Statement

namespace Executed

def op (x : Executed) : MicroOp :=
  x.statement.op

/-- what the trace keeps of it, in a machine of this memory size -/
def entry (memorySize : ℕ) (x : Executed) : TraceEntry :=
  ⟨x.found.currentStep, x.statement.source, (x.found.execute memorySize x.op).remark x.op⟩

end Executed

namespace Machine

/-- the statement that a step executes, if the pointer is at one -/
def pending (m : Machine) : List Executed :=
  ((m.program.statement? m.state.currentStep).map fun s => ⟨m.state, s⟩).toList

/-- the statements that the loop of a bounded run executes -/
def executionsWithin : ℕ → Machine → List Executed
  | 0, _ => []
  | limit + 1, m => if m.isRunning then m.pending ++ executionsWithin limit m.step.2 else []

/-- the statements that an operation executes -/
def executionsOf (m : Machine) : Op → List Executed
  | .step => m.pending
  | .tick => if m.isRunning then m.pending else []
  | .runToCompletion limit => executionsWithin limit m.run
  | _ => []

/-- the statements that a sequence of operations executes, in their order -/
def executions (m : Machine) : List Op → List Executed
  | [] => []
  | op :: ops => m.executionsOf op ++ executions (m.perform op).2 ops

/-- a step goes back and executes nothing, or executes the statement at the pointer and records it -/
theorem step_pending (m : Machine) :
    (m.pending = [] ∧ m.step.2 = { m with state := m.state.restart }) ∨
    ∃ s : Statement, m.pending = [⟨m.state, s⟩] ∧
      let after := m.state.execute m.config.memorySize s.op
      let entry := ⟨m.state.currentStep, s.source, after.remark s.op⟩
      m.step.2 = { m with state := after.record entry m.program.length } := by
  rcases m.step_cases with ⟨hle, hs⟩ | ⟨s, hget, -, hs⟩
  · have hnone : m.pending = [] := by simp [pending, (m.program.statement?_eq_none_iff _).2 hle]
    exact .inl ⟨hnone, congrArg Prod.snd hs⟩
  · have hsome : m.pending = [⟨m.state, s⟩] := by simp [pending, hget]
    exact .inr ⟨s, hsome, congrArg Prod.snd hs⟩

/-! ## Accounts -/

/-- `R m log m'` tells what lies between `m` and `m'` from the statements executed in between. It is an account of the
operations that `A` allows if it lets pointer and status change, holds of a step and of whatever does not drive the
machine, and can be continued. -/
structure Account (A : Op → Prop) (R : Machine → List Executed → Machine → Prop) : Prop where
  moved : ∀ (m : Machine) (currentStep : ℕ) (status : RunStatus),
    R m [] { m with state := { m.state with currentStep, status } }
  step : ∀ m : Machine, R m m.pending m.step.2
  other : ∀ {m : Machine} {op : Op}, A op → op.drives = false → R m [] (m.perform op).2
  trans : ∀ {m d m' : Machine} {log log' : List Executed}, R m log d → R d log' m' → R m (log ++ log') m'

namespace Account

variable {A : Op → Prop} {R : Machine → List Executed → Machine → Prop}

theorem refl (a : Account A R) (m : Machine) : R m [] m :=
  a.moved m m.state.currentStep m.state.status

theorem run (a : Account A R) (m : Machine) : R m [] m.run := by
  unfold Machine.run
  split_ifs
  · exact a.refl m
  · exact a.moved m _ _

theorem pause (a : Account A R) (m : Machine) : R m [] m.pause := by
  unfold Machine.pause
  split_ifs
  · exact a.moved m m.state.currentStep .paused
  · exact a.refl m

theorem runFor (a : Account A R) (limit : ℕ) (m : Machine) : R m (executionsWithin limit m) (m.runFor limit).2 := by
  induction limit generalizing m with
  | zero => exact a.refl m
  | succ limit ih =>
    unfold executionsWithin Machine.runFor
    split_ifs
    · exact a.trans (a.step m) (ih m.step.2)
    · exact a.refl m

theorem runToCompletion (a : Account A R) (m : Machine) (limit : ℕ) :
    R m (executionsWithin limit m.run) (m.runToCompletion limit).2 := by
  unfold Machine.runToCompletion
  split_ifs with hz
  · rw [hz]
    exact a.refl m
  · have hloop := a.trans (a.run m) (a.runFor limit m.run)
    have hall := a.trans hloop (a.pause _)
    simpa using hall

/-- **One operation** is accounted for by the statements that it executes. -/
theorem perform (a : Account A R) (m : Machine) {op : Op} (h : A op) : R m (m.executionsOf op) (m.perform op).2 := by
  cases op with
  | step => exact a.step m
  | tick =>
    show R m (if m.isRunning then m.pending else []) m.tick.2
    unfold Machine.tick
    split_ifs
    · exact a.step m
    · exact a.refl m
  | run => exact a.run m
  | pause => exact a.pause m
  | toggle =>
    show R m [] m.toggle
    unfold Machine.toggle
    split_ifs
    · exact a.pause m
    · exact a.run m
  | runToCompletion limit => exact a.runToCompletion m limit
  | _ => exact a.other h rfl

/-- **A whole run** is accounted for by everything that it executes. -/
theorem performAll (a : Account A R) (m : Machine) {ops : List Op} (h : ∀ op ∈ ops, A op) :
    R m (m.executions ops) (m.performAll ops) := by
  induction ops generalizing m with
  | nil => exact a.refl m
  | cons op ops ih =>
    rw [performAll_cons]
    have hfirst := a.perform m (h op List.mem_cons_self)
    have hrest := ih (m.perform op).2 fun o ho => h o (List.mem_cons_of_mem op ho)
    exact a.trans hfirst hrest

end Account

/-! ### Operations that drive nothing -/

/-- the machine with another program and preset name, rewound -/
def loaded (m : Machine) (program : Program) (preset : Option String) : Machine :=
  { m with program, preset, state := m.state.rewind }

/-- what a load does to all machines alike: they refuse it for one reason, or get one program under one name -/
inductive Loads (op : Op) : Prop
  | refused (e : LoadError) (h : ∀ m : Machine, m.perform op = (.refused (.load e), m))
  | accepted (program : Program) (preset : Option String)
      (h : ∀ m : Machine, m.perform op = (.accepted, m.loaded program preset))

/-- whether a program can be loaded depends on the program alone -/
theorem Loads.of_program {op : Op} {p : Program} (h : ∀ m : Machine, m.perform op = m.orRefuse .load (m.load p)) :
    Loads op := by
  rcases p.length.eq_zero_or_pos with hempty | hpos
  · refine .refused .emptyProgram fun m => ?_
    rw [h, (m.load_eq_error_iff ..).2 ⟨hempty, rfl⟩]
    rfl
  · refine .accepted p none fun m => ?_
    rw [h, (m.load_eq_ok_iff ..).2 ⟨hpos, rfl⟩]
    rfl

/-- **A load reads nothing of a machine.** -/
theorem loads_of_isLoad {op : Op} (h : op.isLoad = true) : Loads op := by
  cases op with
  | load texts => exact .of_program (p := .ofTexts texts) fun m => rfl
  | loadSource source =>
    cases ha : Program.assemble source with
    | error e => exact .refused (.assembly e) fun m => by simp only [perform, loadSource, ha, orRefuse]
    | ok p => exact .of_program (p := p) fun m => by simp only [perform, loadSource, ha]
  | loadPreset name =>
    cases hf : Preset.find? name with
    | none => exact .refused (.unknownPreset name) fun m => by simp only [perform, loadPreset, hf, orRefuse]
    | some preset =>
      refine .accepted preset.program (some preset.name) fun m => ?_
      have hok := (m.loadPreset_eq_ok_iff _ name).2 ⟨preset, hf, rfl⟩
      simp only [perform, hok, orRefuse, loaded]
  | _ => cases h

/-- a load replaces the program and rewinds, if it is not refused -/
theorem perform_of_isLoad (m : Machine) {op : Op} (h : op.isLoad = true) :
    (m.perform op).2 = m ∨
      ∃ program preset, (m.perform op).2 = { m with program, preset, state := m.state.rewind } := by
  cases loads_of_isLoad h with
  | refused e h => exact .inl (congrArg Prod.snd (h m))
  | accepted program preset h => exact .inr ⟨program, preset, congrArg Prod.snd (h m)⟩

/-- a checked write writes what an unchecked one would, since that finds no cell where the other is refused -/
theorem perform_storeMemory (m : Machine) (address : ℕ) (b : UInt8) :
    (m.perform (.storeMemory address b)).2 = m.writeMemory address b := by
  show (m.orRefuse .address (m.storeMemory address b)).2 = _
  cases hr : m.storeMemory address b with
  | error e =>
    obtain ⟨hle, -⟩ := (storeMemory_eq_error_iff ..).1 hr
    rw [writeMemory, Memory.write_of_size_le hle]
    rfl
  | ok d =>
    obtain ⟨-, rfl⟩ := (storeMemory_eq_ok_iff ..).1 hr
    rfl

/-! ## Framed runs -/

/-- What lies between `m` and `m'` is explained by the executed statements: nothing that is fixed has changed, the trace
has an entry for each of them, and whatever part differs was written by one. -/
structure Framed (m : Machine) (log : List Executed) (m' : Machine) : Prop where
  fixed : Fixed m m'
  trace : m'.state.trace = m.state.trace ++ log.map (Executed.entry m.config.memorySize)
  part : ∀ part, m'.state.get part ≠ m.state.get part →
    ∃ x ∈ log, x.op.WritesTo x.found part ∧ ¬x.op.IsIdle x.found

namespace Framed

variable {m d m' : Machine} {log log' : List Executed}

/-- a change of pointer and status alone -/
theorem of_moved (m : Machine) (currentStep : ℕ) (status : RunStatus) :
    Framed m [] { m with state := { m.state with currentStep, status } } where
  fixed := ⟨rfl, rfl, rfl, rfl, rfl⟩
  trace := (List.append_nil _).symm
  part part h := by cases part <;> exact absurd rfl h

theorem trans (h : Framed m log d) (h' : Framed d log' m') : Framed m (log ++ log') m' where
  fixed := h.fixed.trans h'.fixed
  trace := by
    rw [h'.trace, h.trace, h.fixed.config, List.map_append, List.append_assoc]
  part part hne := by
    by_cases hd : d.state.get part = m.state.get part
    · rw [← hd] at hne
      obtain ⟨x, hx, hw⟩ := h'.part part hne
      exact ⟨x, List.mem_append_right _ hx, hw⟩
    · obtain ⟨x, hx, hw⟩ := h.part part hd
      exact ⟨x, List.mem_append_left _ hx, hw⟩

/-- **A step is framed** by the statement at the pointer. -/
theorem step (m : Machine) : Framed m m.pending m.step.2 := by
  rcases m.step_pending with ⟨hnone, hs⟩ | ⟨s, hsome, hs⟩
  · rw [hnone, hs]
    exact of_moved m 0 _
  · have hfixed : Fixed m m.step.2 := (Fixed.refl m).step
    rw [hsome]
    refine ⟨hfixed, ?_, fun part hne => ?_⟩
    · rw [hs]
      simp only [State.record, State.execute_trace]
      rfl
    · refine ⟨_, List.mem_singleton_self _, ?_⟩
      rw [hs] at hne
      exact State.writesTo_of_get_ne fun hsame => hne ((State.get_record ..).trans hsame)

end Framed

/-- being framed is an account of everything that drives a machine -/
theorem framed_account : Account (fun op => op.drives = true) Framed where
  moved := Framed.of_moved
  step := Framed.step
  other hd hn := absurd (hd.symm.trans hn) (by decide)
  trans := Framed.trans

/-- **A whole run is framed** by everything that it executes. -/
theorem Framed.performAll (m : Machine) {ops : List Op} (h : ∀ op ∈ ops, op.drives = true) :
    Framed m (m.executions ops) (m.performAll ops) :=
  framed_account.performAll m h

/-- when everything that is executed is idle, only trace, pointer and status are not what they were -/
theorem Framed.eq_of_idle {m m' : Machine} {log : List Executed} (h : Framed m log m')
    (hidle : ∀ x ∈ log, x.op.IsIdle x.found) :
    m' = { m with
      state := { m.state with
        currentStep := m'.state.currentStep
        trace := m'.state.trace
        status := m'.state.status } } := by
  have hparts : ∀ part, m'.state.get part = m.state.get part := fun part => by
    by_contra hne
    obtain ⟨x, hx, -, hbusy⟩ := h.part part hne
    exact hbusy (hidle x hx)
  have hstate := State.eq_of_get_eq h.fixed.memory h.fixed.registers hparts
  rw [← hstate, ← h.fixed.config, ← h.fixed.program, ← h.fixed.preset]

/-- **Runs change what they write.** Drive any machine, with any program, by any steps, ticks, starts, pauses and bounded
runs. Configuration, program, preset name and the two sizes stay. The trace tells what was executed, with nothing left
out. A part of the state differs only if a statement was executed that writes to it: a cell, a write that found the
address of this cell; a general register, a transfer to this one; and every other part, the transfers of its own kind.
Statements that are no transfer, transfers to a missing register and writes outside memory are never among them: a run
of such statements changes trace, pointer and status alone. -/
theorem runs_change_what_they_write (m : Machine) (ops : List Op) (h : ∀ op ∈ ops, op.drives = true) :
    let m' := m.performAll ops
    let log := m.executions ops
    (m'.config = m.config ∧ m'.program = m.program ∧ m'.preset = m.preset ∧
      m'.state.memory.size = m.state.memory.size ∧ m'.state.registers.count = m.state.registers.count) ∧
    m'.state.trace = m.state.trace ++ log.map (Executed.entry m.config.memorySize) ∧
    (∀ part, m'.state.get part ≠ m.state.get part →
      ∃ x ∈ log, x.op.WritesTo x.found part ∧ ¬x.op.IsIdle x.found) ∧
    ((∀ x ∈ log, x.op.IsIdle x.found) →
      m' = { m with
        state := { m.state with
          currentStep := m'.state.currentStep
          trace := m'.state.trace
          status := m'.state.status } }) := by
  intro m' log
  have hframed : Framed m log m' := Framed.performAll m h
  obtain ⟨hconfig, hprogram, hpreset, hmemory, hregisters⟩ := hframed.fixed
  exact ⟨⟨hconfig, hprogram, hpreset, hmemory, hregisters⟩, hframed.trace, hframed.part, hframed.eq_of_idle⟩

/-- a write to the last cell, two statements that do nothing, and a transfer that leads to the first cell -/
def framedProgram : Machine :=
  (fresh small).performAll
    [.load ["Mem[MAR] ← MDR", "R[9] ← ALU", "?", "MAR ← PC"], .assign .mar 3, .assign .mdr 7]

theorem runs_change_what_they_write_framedProgram :
    let ops : List Op := [.runToCompletion 9, .step, .run, .tick]
    let m' := framedProgram.performAll ops
    let idle : Machine := framedProgram.step.2
    (∀ op ∈ ops, op.drives = true) ∧ m'.state.trace.length = 5 ∧
    (∃ x ∈ framedProgram.executions ops, x.op = .memoryFromMdr ∧ x.found.registers.mar.toNat = 0) ∧
    (∃ x ∈ framedProgram.executions ops, x.op = .marFromPc) ∧
    m'.state.registers.pc = framedProgram.state.registers.pc ∧
    (∀ x ∈ idle.executions [.step, .step], x.op.IsIdle x.found) ∧
    (idle.performAll [.step, .step]).state.currentStep = 3 ∧
    (idle.performAll [.step, .step]).state.memory = idle.state.memory ∧
    (idle.performAll [.step, .step]).state.aluFlags = idle.state.aluFlags := by
  intro ops m' idle
  have hdrives : ∀ op ∈ ops, op.drives = true := by decide
  have hv : m'.state.trace.length = 5 ∧ m'.state.get (.cell 0) ≠ framedProgram.state.get (.cell 0) ∧
      m'.state.get .mar ≠ framedProgram.state.get .mar ∧
      m'.state.registers.pc = framedProgram.state.registers.pc ∧
      (idle.performAll [.step, .step]).state.currentStep = 3 := by decide +kernel
  obtain ⟨hlength, hcell, hmar, hpc, hpointer⟩ := hv
  obtain ⟨-, -, hparts, -⟩ := runs_change_what_they_write framedProgram ops hdrives
  obtain ⟨x, hx, hwrites, -⟩ := hparts _ hcell
  obtain ⟨y, hy, hmoves, -⟩ := hparts _ hmar
  have hops : (idle.executions [.step, .step]).map (fun x => (x.op, x.found.registers.count)) =
      [(.registerFromAlu 9, 2), (.unknown "?", 2)] := by decide +kernel
  have hidle : ∀ x ∈ idle.executions [.step, .step], x.op.IsIdle x.found := fun x hx => by
    have hmem := List.mem_map_of_mem (f := fun x : Executed => (x.op, x.found.registers.count)) hx
    rw [hops] at hmem
    simp only [List.mem_cons, List.not_mem_nil, or_false, Prod.mk.injEq] at hmem
    rcases hmem with ⟨hop, hcount⟩ | ⟨hop, -⟩
    · rw [hop]
      exact .noRegister (by rw [hcount]; decide)
    · rw [hop]
      exact .unknown ..
  obtain ⟨-, -, -, hstays⟩ := runs_change_what_they_write idle [.step, .step] (by decide)
  have hsame := hstays hidle
  refine ⟨hdrives, hlength, ⟨x, hx, hwrites⟩, ⟨y, hy, hmoves⟩, hpc, hidle, hpointer, ?_, ?_⟩
  · rw [hsame]
  · rw [hsame]

end Machine

end ByteMachine
