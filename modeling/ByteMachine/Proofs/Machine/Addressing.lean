/-
Programs alone never leave memory.

Two registers hold addresses. The program counter is moved by its own micro-operation only, modulo the memory size, and
the memory address register takes its value from there. A fresh or reset machine has zero in both, and zero is the
address of a cell, because a valid configuration has at least one. So both stay addresses of cells, up to the memory of
256 cells, whose size is no byte; only somebody who sets them from outside, or a snapshot in which that was done, can
lead out. Every access to memory that a program makes then finds its cell, and the trace says so.

Contents:
- `Op.setsAddress`: setting one of the two registers from outside;
- `NamesCell`: what the trace says of an access names a cell that is there;
- `State.InMemory`: the invariant of a state, for a given memory size.

Main statements:
- `State.InMemory.executed`: a statement keeps the invariant;
- `inMemory_kept`: so does every change;
- `programs_stay_in_memory`: both registers are below the memory size in every machine that is reached without setting
  them, and every access reaches a cell.
-/
import Mathlib.Tactic
import ByteMachine.Proofs.Machine.Restoring

namespace ByteMachine

/-- does it set a register that holds an address? -/
def Op.setsAddress : Op → Bool
  | .assign .pc _ | .assign .mar _ => true
  | _ => false

/-- the next address is one more, modulo the memory size, also where that size is no byte -/
theorem Registers.toNat_nextPc {n : ℕ} (h : 1 ≤ n ∧ n ≤ 256) (pc : UInt8) :
    (nextPc n pc).toNat = (pc.toNat + 1) % n := by
  have hlt : (pc.toNat + 1) % n < n := Nat.mod_lt _ h.1
  rw [nextPc, max_eq_left h.1, UInt8.toNat_ofNat_of_lt' (hlt.trans_le h.2)]

theorem Registers.toNat_nextPc_lt {n : ℕ} (h : 1 ≤ n ∧ n ≤ 256) (pc : UInt8) : (nextPc n pc).toNat < n := by
  rw [toNat_nextPc h]
  exact Nat.mod_lt _ h.1

/-! ## What the trace says of an access -/

/-- what a write says that finds no cell, after the address -/
def ignoredWrite : List Char :=
  " out of range, write ignored".toList

/-- what is said of an access names a cell of a memory of this size, with its value -/
structure NamesCell (size : ℕ) (e : TraceEntry) : Prop where
  read : MicroOp.decode e.operation = .mdrFromMemory →
    ∃ address b : UInt8, address.toNat < size ∧
      e.result = "MDR = " ++ ("Mem[" ++ Text.numeral address.toNat ++ "]") ++ " = " ++ Text.numeral b.toNat
  write : MicroOp.decode e.operation = .memoryFromMdr →
    ∃ address b : UInt8, address.toNat < size ∧
      e.result = "Mem[" ++ Text.numeral address.toNat ++ "]" ++ " = " ++ Text.numeral b.toNat

/-- a text that ends in a number does not end in the words of an ignored write -/
theorem not_ignoredWrite_suffix (s : String) (n : ℕ) : ¬ignoredWrite <:+ (s ++ Text.numeral n).toList := by
  intro h
  have hne : Text.decimal n ≠ [] := Nat.toDigits_ne_nil
  have hlast : (s ++ Text.numeral n).toList.getLast? = some ((Text.decimal n).getLast hne) := by
    simp [Text.numeral, List.getLast?_append, List.getLast?_eq_some_getLast hne]
  obtain ⟨before, hb⟩ := h
  have hd : (before ++ ignoredWrite).getLast? = some 'd' := by
    rw [List.getLast?_append]
    rfl
  rw [hb, hlast, Option.some.injEq] at hd
  have hdigit := Text.isDigit_of_mem_decimal (List.getLast_mem hne)
  rw [hd] at hdigit
  exact absurd hdigit (by decide)

/-- a write that names its cell was not ignored -/
theorem NamesCell.not_ignored {size : ℕ} {e : TraceEntry} (h : NamesCell size e)
    (hd : MicroOp.decode e.operation = .memoryFromMdr) : ¬ignoredWrite <:+ e.result.toList := by
  obtain ⟨address, b, -, hr⟩ := h.write hd
  rw [hr]
  exact not_ignoredWrite_suffix _ b.toNat

/-! ## States -/

namespace State

/-- the memory has `n` cells, both address registers name one of them, and so does the trace for every access -/
structure InMemory (n : ℕ) (s : State) : Prop where
  size : s.memory.size = n
  pc : s.registers.pc.toNat < n
  mar : s.registers.mar.toNat < n
  trace : ∀ e ∈ s.trace, NamesCell n e

theorem inMemory_initial {c : Config} (h : c.Valid) : (State.initial c).InMemory c.memorySize where
  size := Memory.size_zeroed c.memorySize
  pc := h.memory.1
  mar := h.memory.1
  trace _ he := nomatch he

namespace InMemory

variable {n : ℕ} {s : State}

theorem execute_pc_lt (h : s.InMemory n) (hn : 1 ≤ n ∧ n ≤ 256) (op : MicroOp) :
    (s.execute n op).registers.pc.toNat < n := by
  cases op with
  | advancePc => exact Registers.toNat_nextPc_lt hn _
  | _ => exact h.pc

theorem execute_mar_lt (h : s.InMemory n) (op : MicroOp) : (s.execute n op).registers.mar.toNat < n := by
  cases op with
  | marFromPc => exact h.pc
  | _ => exact h.mar

/-- an executed access says which cell it found -/
theorem namesCell (h : s.InMemory n) (i : ℕ) (statement : Statement) :
    NamesCell n ⟨i, statement.source, (s.execute n statement.op).remark statement.op⟩ where
  read hd := by
    have hop : statement.op = .mdrFromMemory := hd
    rw [hop]
    exact ⟨s.registers.mar, _, h.mar, rfl⟩
  write hd := by
    have hop : statement.op = .memoryFromMdr := hd
    have hholds : (s.execute n .memoryFromMdr).memory.holds s.registers.mar.toNat = true := by
      rw [Memory.holds, execute_size, h.size]
      simpa using h.mar
    rw [hop]
    exact ⟨s.registers.mar, s.registers.mdr, h.mar, if_pos hholds⟩

/-- **A statement keeps both registers inside memory**, and is recorded with the cell that it found. -/
theorem executed (h : s.InMemory n) (hn : 1 ≤ n ∧ n ≤ 256) (statement : Statement) (length : ℕ) :
    let after := s.execute n statement.op
    (after.record ⟨s.currentStep, statement.source, after.remark statement.op⟩ length).InMemory n where
  size := (execute_size ..).trans h.size
  pc := h.execute_pc_lt hn statement.op
  mar := h.execute_mar_lt statement.op
  trace e he := by
    simp only [record, execute_trace, List.mem_append, List.mem_singleton] at he
    rcases he with he | rfl
    · exact h.trace e he
    · exact h.namesCell s.currentStep statement

theorem paused (h : s.InMemory n) : s.paused.InMemory n where
  size := by simpa using h.size
  pc := by simpa using h.pc
  mar := by simpa using h.mar
  trace := by simpa using h.trace

end InMemory

end State

namespace Machine

/-! ## Machines -/

/-- the configuration is valid, and the state stays inside the configured memory -/
structure InMemory (m : Machine) : Prop where
  config : m.config.Valid
  state : m.state.InMemory m.config.memorySize

theorem inMemory_fresh {c : Config} (h : c.Valid) : InMemory (fresh c) :=
  ⟨h, State.inMemory_initial h⟩

theorem InMemory.step {m : Machine} (h : InMemory m) : InMemory m.step.2 := by
  rcases m.step_cases with ⟨-, hs⟩ | ⟨s, -, -, hs⟩
  · rw [hs]
    exact ⟨h.config, { h.state with }⟩
  · rw [hs]
    exact ⟨h.config, h.state.executed h.config.memory s _⟩

/-- every change keeps machines inside memory, if the address registers are not set from outside and what is imported
comes from such machines -/
theorem inMemory_kept : Kept (Allowed (fun op => op.setsAddress = false) InMemory) InMemory where
  load _ _ hl h := by
    obtain ⟨-, rfl⟩ := (load_eq_ok_iff ..).1 hl
    exact ⟨h.config, { h.state with trace := fun _ he => nomatch he }⟩
  loadPreset _ hl h := by
    obtain ⟨p, -, rfl⟩ := (loadPreset_eq_ok_iff ..).1 hl
    exact ⟨h.config, { h.state with trace := fun _ he => nomatch he }⟩
  step := InMemory.step
  run {m} h := by
    unfold run
    split_ifs
    · exact h
    · exact ⟨h.config, { h.state with }⟩
  pause {m} h := by
    rw [m.pause_eq]
    exact ⟨h.config, h.state.paused⟩
  reset {m} _ h := by
    have hsize := (Memory.size_clear m.state.memory).trans h.state.size
    exact ⟨h.config, hsize, h.config.memory.1, h.config.memory.1, fun _ he => nomatch he⟩
  setRegister _ _ h := ⟨h.config, { h.state with }⟩
  writeMemory _ _ h := ⟨h.config, { h.state with size := (Memory.size_write ..).trans h.state.size }⟩
  assign {m name b} ha h := by
    cases name with
    | pc | mar => cases ha
    | ir | mdr => exact ⟨h.config, { h.state with }⟩
  restore {m _ _} ha hr h := by
    obtain ⟨other, ho, rfl⟩ := ha
    obtain ⟨hfits, rfl⟩ := (restore_eq_ok_iff ..).1 hr
    -- the snapshot fits, so the exporting machine had as many cells
    have hsize : other.config.memorySize = m.config.memorySize := ho.state.size.symm.trans hfits.memory
    refine ⟨h.config, ?_⟩
    show other.state.paused.InMemory m.config.memorySize
    rw [← hsize]
    exact ho.state.paused
  text := allowed_restore_of_text

/-- **Programs alone never leave memory.** Take any machine that was reached from a valid configuration by any
operations that do not set program counter or memory address register from outside, where snapshots were imported only
from machines reached in the same way. Both registers are below the memory size. A statement that reads memory gets the
value of a cell, and one that writes changes a cell. Whatever is recorded of either names a cell that is there, and no
write says that it was ignored. -/
theorem programs_stay_in_memory {m : Machine} (hm : Homegrown (fun op => op.setsAddress = false) m) :
    let size := m.config.memorySize
    let address := m.state.registers.mar.toNat
    m.state.registers.pc.toNat < size ∧ address < size ∧
    (∀ e, m.step.1 = .executed e → MicroOp.decode e.operation = .mdrFromMemory →
      m.state.memory.cells[address]? = some m.step.2.state.registers.mdr) ∧
    (∀ e, m.step.1 = .executed e → MicroOp.decode e.operation = .memoryFromMdr →
      m.step.2.state.memory.cells = m.state.memory.cells.set address m.state.registers.mdr ∧
        m.step.2.state.memory.cells[address]? = some m.state.registers.mdr) ∧
    ∀ e, m.step.1 = .executed e ∨ e ∈ m.state.trace →
      NamesCell size e ∧ (MicroOp.decode e.operation = .memoryFromMdr → ¬ignoredWrite <:+ e.result.toList) := by
  intro size address
  have h : InMemory m := hm.keeps inMemory_fresh inMemory_kept
  have hcell : address < m.state.memory.size := h.state.size.symm ▸ h.state.mar
  refine ⟨h.state.pc, h.state.mar, fun e he hd => ?_, fun e he hd => ?_, fun e he => ?_⟩
  · obtain ⟨s, -, rfl, hs⟩ := of_step_executed he
    have hop : s.op = .mdrFromMemory := hd
    rw [hs, Memory.getElem?_cells hcell, hop]
    rfl
  · obtain ⟨s, -, rfl, hs⟩ := of_step_executed he
    have hop : s.op = .memoryFromMdr := hd
    rw [hs, hop]
    exact ⟨rfl, List.getElem?_set_self hcell⟩
  · have hn : NamesCell size e := by
      rcases he with he | he
      · obtain ⟨s, -, rfl, -⟩ := of_step_executed he
        exact h.state.namesCell m.state.currentStep s
      · exact h.state.trace e he
    exact ⟨hn, hn.not_ignored⟩

/-- a program that goes once round the four cells, and is left before it writes -/
def circling : Machine :=
  (fresh small).performAll
    [.load (List.replicate 5 "PC ← PC + 1" ++ ["MAR ← PC", "MDR ← Mem[MAR]", "Mem[MAR] ← MDR"]), .writeMemory 1 7,
      .runToCompletion 7]

/-- another machine that takes over from it -/
def circlingElsewhere : Machine :=
  (elsewhere.perform (.restore circling.snapshot)).2

theorem programs_stay_in_memory_circling :
    let m := circlingElsewhere
    Homegrown (fun op => op.setsAddress = false) m ∧
    m.state.registers.pc.toNat < m.config.memorySize ∧ m.state.registers.mar.toNat < m.config.memorySize ∧
    m.config.memorySize = 4 ∧ m.state.trace.length = 7 ∧
    ∃ e, m.step.1 = .executed e ∧ MicroOp.decode e.operation = .memoryFromMdr ∧
      m.step.2.state.memory.cells[1]? = some 7 ∧ ¬ignoredWrite <:+ e.result.toList := by
  intro m
  have hc : Homegrown (fun op => op.setsAddress = false) circling :=
    (Homegrown.start (c := small) rfl).performAll (by simp [Op.snapshot?, Op.setsAddress])
  have he : Homegrown (fun op => op.setsAddress = false) elsewhere :=
    (Homegrown.start (c := { small with clockIntervalMs := 5 }) rfl).performAll
      (by simp [Op.snapshot?, Op.setsAddress])
  have hm : Homegrown (fun op => op.setsAddress = false) m := he.imported hc rfl
  have hv : m.config.memorySize = 4 ∧ m.state.trace.length = 7 ∧ m.state.registers.mar = 1 ∧
      m.state.registers.mdr = 7 ∧
      (m.program.statement? m.state.currentStep).map Statement.op = some .memoryFromMdr := by decide +kernel
  obtain ⟨hsize, htrace, hmar, hmdr, hnext⟩ := hv
  obtain ⟨s, hs, hop⟩ := Option.map_eq_some_iff.1 hnext
  obtain ⟨hpc, haddress, -, hwrites, hnames⟩ := programs_stay_in_memory hm
  rcases m.step_cases with ⟨hle, -⟩ | ⟨s', hs', -, hstep⟩
  · rw [(m.program.statement?_eq_none_iff _).2 hle] at hs
    cases hs
  · cases hs.symm.trans hs'
    have hex := congrArg Prod.fst hstep
    have hcell := (hwrites _ hex hop).2
    rw [hmar, hmdr] at hcell
    exact ⟨hm, hpc, haddress, hsize, htrace, _, hex, hop, hcell, (hnames _ (.inl hex)).2 hop⟩

end Machine

end ByteMachine
