/-
The program counter counts.

One micro-operation moves the program counter, by one cell, and no other touches it. Neither does anything that drives a
machine, loads a program or seeds a register or a cell. So until somebody sets it from outside, the counter tells how
many of the executed statements moved it, modulo the memory size: in whatever way they were driven, in however many
passes, and of however many programs.

Contents:
- `Op.leavesPc`: operations that leave the program counter to the statements;
- `advances`: how many executed statements move it;
- `Counted`: the counter has moved as often;
- `Recorded`: the trace has an entry for each executed statement.

Main statements:
- `State.toNat_pc_execute`: what a statement does to the counter;
- `counted_account`, `recorded_account`: what holds of each step holds of runs;
- `program_counter_counts`: the counter after any run, from the executed statements and from the trace.
-/
import Mathlib.Tactic
import ByteMachine.Proofs.Machine.Addressing
import ByteMachine.Proofs.Machine.Framing

namespace ByteMachine

/-- does it leave the program counter to the statements? Setting it, a reset and an import do not -/
def Op.leavesPc : Op → Bool
  | .assign .pc _ | .reset | .restore _ | .restoreText _ => false
  | _ => true

/-- how many of the executed statements move the program counter -/
def advances (log : List Executed) : ℕ :=
  log.countP fun x => x.op = .advancePc

theorem advances_append (log log' : List Executed) : advances (log ++ log') = advances log + advances log' :=
  List.countP_append

/-- one statement moves the counter to the next cell, and every other leaves it where it is -/
theorem State.toNat_pc_execute {n : ℕ} (hn : 1 ≤ n ∧ n ≤ 256) {s : State} (hs : s.registers.pc.toNat < n)
    (op : MicroOp) :
    (s.execute n op).registers.pc.toNat = (s.registers.pc.toNat + if op = .advancePc then 1 else 0) % n := by
  cases op with
  | advancePc => exact Registers.toNat_nextPc hn _
  | _ => exact (Nat.mod_eq_of_lt hs).symm

namespace Machine

/-! ## Counting along a run -/

/-- the program counter of `m'` is that of `m`, moved on by every executed statement that does so -/
structure Counted (m : Machine) (log : List Executed) (m' : Machine) : Prop where
  config : m'.config = m.config
  pc : m.config.Valid → m.state.registers.pc.toNat < m.config.memorySize →
    m'.state.registers.pc.toNat = (m.state.registers.pc.toNat + advances log) % m.config.memorySize

namespace Counted

variable {m d m' : Machine} {log log' : List Executed}

/-- where nothing is executed and the counter stays, it has counted -/
theorem of_same (hc : m'.config = m.config) (hp : m'.state.registers.pc = m.state.registers.pc) : Counted m [] m' where
  config := hc
  pc _ hlt := by
    rw [hp]
    exact (Nat.mod_eq_of_lt hlt).symm

theorem of_isLoad (m : Machine) {op : Op} (h : op.isLoad = true) : Counted m [] (m.perform op).2 := by
  rcases m.perform_of_isLoad h with hs | ⟨program, preset, hs⟩
  · rw [hs]
    exact of_same rfl rfl
  · rw [hs]
    exact of_same rfl rfl

theorem step (m : Machine) : Counted m m.pending m.step.2 := by
  rcases m.step_pending with ⟨hnone, hs⟩ | ⟨s, hsome, hs⟩
  · rw [hnone, hs]
    exact of_same rfl rfl
  · rw [hsome, hs]
    refine ⟨rfl, fun hc hlt => ?_⟩
    have hexecute := State.toNat_pc_execute hc.memory hlt s.op
    show (m.state.execute m.config.memorySize s.op).registers.pc.toNat = _
    rw [hexecute, advances, List.countP_singleton]
    simp only [decide_eq_true_eq]
    rfl

theorem trans (h : Counted m log d) (h' : Counted d log' m') : Counted m (log ++ log') m' where
  config := h'.config.trans h.config
  pc hc hlt := by
    have hd := h.pc hc hlt
    have hm := h'.pc
    rw [h.config] at hm
    have hdlt : d.state.registers.pc.toNat < m.config.memorySize := by
      rw [hd]
      exact Nat.mod_lt _ hc.memory.1
    calc m'.state.registers.pc.toNat
        = (d.state.registers.pc.toNat + advances log') % m.config.memorySize := hm hc hdlt
      _ = (m.state.registers.pc.toNat + advances log + advances log') % m.config.memorySize := by
          rw [hd, Nat.mod_add_mod]
      _ = (m.state.registers.pc.toNat + advances (log ++ log')) % m.config.memorySize := by
          rw [advances_append, Nat.add_assoc]

end Counted

/-- **The counter counts along every run** that leaves it to the statements. -/
theorem counted_account : Account (fun op => op.leavesPc = true) Counted where
  moved _ _ _ := .of_same rfl rfl
  step := Counted.step
  other {m op} ha hn := by
    cases op with
    | load | loadSource | loadPreset => exact .of_isLoad m rfl
    | setRegister | writeMemory => exact .of_same rfl rfl
    | storeMemory address b =>
      rw [perform_storeMemory]
      exact .of_same rfl rfl
    | assign name b =>
      cases name with
      | pc => cases ha
      | ir | mar | mdr => exact .of_same rfl rfl
    | reset | restore | restoreText => cases ha
    | step | tick | run | pause | toggle | runToCompletion => cases hn
  trans := Counted.trans

/-! ## The trace of a run -/

/-- the trace of `m'` is that of `m`, with an entry for every executed statement -/
structure Recorded (m : Machine) (log : List Executed) (m' : Machine) : Prop where
  config : m'.config = m.config
  trace : m'.state.trace = m.state.trace ++ log.map (Executed.entry m.config.memorySize)

/-- where nothing is executed and the trace stays, it is complete -/
theorem Recorded.of_same {m m' : Machine} (hc : m'.config = m.config) (ht : m'.state.trace = m.state.trace) :
    Recorded m [] m' :=
  ⟨hc, by rw [ht, List.map_nil, List.append_nil]⟩

/-- every run that goes on with the trace records what it executes -/
theorem recorded_account : Account (fun op => op.continues = true) Recorded where
  moved _ _ _ := .of_same rfl rfl
  step m := by
    have hframed := Framed.step m
    exact ⟨hframed.fixed.config, hframed.trace⟩
  other {m op} ha hn := by
    cases op with
    | setRegister | writeMemory | assign => exact .of_same rfl rfl
    | storeMemory address b =>
      rw [perform_storeMemory]
      exact .of_same rfl rfl
    | load | loadSource | loadPreset | reset | restore | restoreText => cases ha
    | step | tick | run | pause | toggle | runToCompletion => cases hn
  trans {m d m' log log'} h h' := by
    refine ⟨h'.config.trans h.config, ?_⟩
    rw [h'.trace, h.trace, h.config, List.map_append, List.append_assoc]

/-- an entry of the trace tells whether its statement moved the counter -/
theorem countP_entries (n : ℕ) (log : List Executed) :
    (log.map (Executed.entry n)).countP (fun e => MicroOp.decode e.operation = .advancePc) = advances log := by
  rw [List.countP_map]
  rfl

/-- what leaves the counter alone and loads nothing goes on with the trace -/
theorem continues_of_leavesPc {op : Op} (h : op.leavesPc = true) (hl : op.isLoad = false) : op.continues = true := by
  cases op with
  | load | loadSource | loadPreset => cases hl
  | reset | restore | restoreText => cases h
  | _ => rfl

/-- **The program counter counts.** Take any machine whose program counter is the address of a cell, with any program,
and do whatever does not set the counter, reset or import: steps, ticks, starts and bounded runs over any number of
passes, loads and seeds among them. Then the counter is what it was, plus one for every executed statement that moves
it, modulo the memory size. If no program is loaded on the way, these are the statements that the trace has gained. -/
theorem program_counter_counts (m : Machine) (hc : m.config.Valid)
    (hpc : m.state.registers.pc.toNat < m.config.memorySize) (ops : List Op) (h : ∀ op ∈ ops, op.leavesPc = true) :
    let m' := m.performAll ops
    let count := advances (m.executions ops)
    m'.state.registers.pc.toNat = (m.state.registers.pc.toNat + count) % m.config.memorySize ∧
    ((∀ op ∈ ops, op.isLoad = false) → ∃ entries, m'.state.trace = m.state.trace ++ entries ∧
      entries.countP (fun e => MicroOp.decode e.operation = .advancePc) = count) := by
  intro m' count
  have hcounted : Counted m (m.executions ops) m' := counted_account.performAll m h
  refine ⟨hcounted.pc hc hpc, fun hl => ?_⟩
  have hgoes : ∀ op ∈ ops, op.continues = true := fun op ho => continues_of_leavesPc (h op ho) (hl op ho)
  have hrecorded : Recorded m (m.executions ops) m' := recorded_account.performAll m hgoes
  exact ⟨_, hrecorded.trace, countP_entries ..⟩

/-- a machine at the last of its four cells, with a program that moves on twice in each pass -/
def atLastCell : Machine :=
  (fresh small).performAll [.load ["pc<-pc+1", "A ← R[0]", "PC ← PC + 1"], .assign .pc 3]

theorem program_counter_counts_atLastCell :
    let ops : List Op :=
      [.runToCompletion 9, .step, .step, .assign .mar 9, .run, .tick, .tick, .setRegister 0 1, .toggle, .tick]
    let m' := atLastCell.performAll ops
    atLastCell.config.Valid ∧ atLastCell.state.registers.pc = 3 ∧ (∀ op ∈ ops, op.leavesPc = true) ∧
    advances (atLastCell.executions ops) = 5 ∧ m'.state.registers.pc.toNat = (3 + 5) % 4 ∧
    ∃ entries, m'.state.trace = entries ∧
      entries.countP (fun e => MicroOp.decode e.operation = .advancePc) = 5 := by
  intro ops m'
  have hc : atLastCell.config.Valid := ⟨by decide, by decide, by decide⟩
  have hops : ∀ op ∈ ops, op.leavesPc = true := by decide
  have hv : atLastCell.state.registers.pc = 3 ∧ atLastCell.config.memorySize = 4 ∧ atLastCell.state.trace = [] ∧
      advances (atLastCell.executions ops) = 5 := by decide +kernel
  obtain ⟨hpc, hsize, htrace, hcount⟩ := hv
  have hlt : atLastCell.state.registers.pc.toNat < atLastCell.config.memorySize := by
    rw [hpc, hsize]
    decide
  obtain ⟨hcounter, hentries⟩ := program_counter_counts atLastCell hc hlt ops hops
  obtain ⟨entries, hadded, hmoves⟩ := hentries (by decide)
  rw [hpc, hsize, hcount] at hcounter
  rw [htrace, List.nil_append] at hadded
  exact ⟨hc, hpc, hops, hcount, hcounter, entries, hadded, hmoves.trans hcount⟩

end Machine

end ByteMachine
