/-
What the presets do, on every machine.

A program has no jumps. So a bounded run that begins at its first statement and may execute all of it leaves what its
micro-operations make of the state, one after the other; only pointer, trace and status tell that they were driven. That
holds from whatever state the program is loaded into, since a load rewinds.

Each preset is then executed once, on a state of which nothing is known. Its effect is read off the result: with cells
and registers that may be missing, with the byte at a program counter that may be outside memory, and with a following
cell that may be the same one.

Contents:
- `State.executeAll`: what micro-operations make of a state, one after the other;
- `Effect`: a run has left what the executed micro-operations make of the state, but for pointer, trace and status;
- `State.Copied`, `State.Fetched`, `State.Calculated`: what the presets leave.

Main statements:
- `rewind_execute`: pointer, trace and status make no difference to a micro-operation;
- `effect_account`: every run leaves what its executed micro-operations make of the state;
- `rewind_runToCompletion`: a bounded run executes the program from where it begins;
- `runToCompletion_loaded`: a run of a loaded program that may execute all of it;
- `copied_loadStore`, `fetched_fetchDecodeExecute`, `calculated_aluOperations`: the presets, micro-operation after
  micro-operation;
- `presets_do_what_they_describe`: the presets, loaded into any machine and run to their end.
-/
import Mathlib.Tactic
import ByteMachine.Proofs.Machine.Addressing
import ByteMachine.Proofs.Machine.Latching
import ByteMachine.Proofs.MicroOp.Canonical

namespace ByteMachine

namespace State

/-! ## Micro-operations in a row -/

/-- what these micro-operations make of the state, one after the other, on a machine of this memory size -/
def executeAll (memorySize : ℕ) (ops : List MicroOp) (s : State) : State :=
  ops.foldl (fun s op => s.execute memorySize op) s

theorem executeAll_append (n : ℕ) (ops ops' : List MicroOp) (s : State) :
    s.executeAll n (ops ++ ops') = (s.executeAll n ops).executeAll n ops' :=
  List.foldl_append

/-- **A micro-operation does not look at pointer, trace and status**, and leaves them alone. -/
theorem rewind_execute (n : ℕ) (op : MicroOp) (s : State) : (s.execute n op).rewind = s.rewind.execute n op := by
  cases op <;> rfl

end State

/-- the micro-operations of a program are those that its sources decode to -/
theorem Program.map_decode_sources (p : Program) : p.sources.map MicroOp.decode = p.ops := by
  rw [Program.sources, List.map_map]
  rfl

/-- the executed micro-operations are those that the sources in the trace decode to -/
theorem map_decode_entries (n : ℕ) (log : List Executed) :
    ((log.map (Executed.entry n)).map TraceEntry.operation).map MicroOp.decode = log.map Executed.op := by
  rw [List.map_map, List.map_map]
  rfl

namespace Machine

/-! ## The effect of a run -/

/-- pointer, trace and status apart, `m'` is what the executed micro-operations make of `m` -/
structure Effect (m : Machine) (log : List Executed) (m' : Machine) : Prop where
  config : m'.config = m.config
  state : m'.state.rewind = m.state.rewind.executeAll m.config.memorySize (log.map Executed.op)

/-- **Every run leaves what its executed micro-operations make of the state.** -/
theorem effect_account : Account (fun op => op.drives = true) Effect where
  moved _ _ _ := ⟨rfl, rfl⟩
  step m := by
    rcases m.step_pending with ⟨hnone, hs⟩ | ⟨s, hsome, hs⟩
    · rw [hnone, hs]
      exact ⟨rfl, rfl⟩
    · rw [hsome, hs]
      exact ⟨rfl, State.rewind_execute ..⟩
  other hd hn := absurd (hd.symm.trans hn) (by decide)
  trans {m d m' log log'} h h' := by
    refine ⟨h'.config.trans h.config, ?_⟩
    rw [List.map_append, State.executeAll_append, ← h.state, ← h.config]
    exact h'.state

/-- a bounded run executes as many micro-operations of the program as it counts, from where it begins -/
theorem ops_executionsWithin {m : Machine} (hL : 0 < m.program.length) {limit : ℕ} (h : 0 < limit) :
    (executionsWithin limit m.run).map Executed.op =
      (m.program.ops.drop m.entryPoint).take (m.runToCompletion limit).1 := by
  have hframed : Framed m (executionsWithin limit m.run) (m.runToCompletion limit).2 :=
    framed_account.runToCompletion m limit
  obtain ⟨entries, htrace, -, hsources⟩ := (runsTo_runToCompletion hL h).trace
  have hentries : (executionsWithin limit m.run).map (Executed.entry m.config.memorySize) = entries :=
    List.append_cancel_left (hframed.trace.symm.trans htrace)
  rw [← map_decode_entries m.config.memorySize, hentries, hsources, List.map_take, List.map_drop,
    Program.map_decode_sources]

/-- **A bounded run executes the program** from where it begins, and leaves what that makes of the state. -/
theorem rewind_runToCompletion {m : Machine} (hL : 0 < m.program.length) {limit : ℕ} (h : 0 < limit) :
    (m.runToCompletion limit).2.state.rewind =
      m.state.rewind.executeAll m.config.memorySize
        ((m.program.ops.drop m.entryPoint).take (m.runToCompletion limit).1) := by
  rw [← ops_executionsWithin hL h]
  exact (effect_account.runToCompletion m limit).state

/-- what has just been loaded begins with its first statement -/
theorem entryPoint_loaded (m : Machine) (program : Program) (preset : Option String) :
    (m.loaded program preset).entryPoint = 0 :=
  ite_self _

/-- **A loaded program is executed as a whole** if the bound is at least its length, whatever the machine was before. -/
theorem runToCompletion_loaded (m : Machine) {program : Program} (preset : Option String) (hL : 0 < program.length)
    {limit : ℕ} (h : program.length ≤ limit) :
    let last := ((m.loaded program preset).runToCompletion limit).2
    last.state.status = .completed ∧
      last.state.rewind = m.state.rewind.executeAll m.config.memorySize program.ops := by
  intro last
  have hlimit : 0 < limit := hL.trans_le h
  have hentry := m.entryPoint_loaded program preset
  have hruns := runsTo_runToCompletion (m := m.loaded program preset) hL hlimit
  have hcount := hruns.count
  have hrewind := rewind_runToCompletion (m := m.loaded program preset) hL hlimit
  rw [hentry, Nat.sub_zero] at hcount
  have hall : ((m.loaded program preset).runToCompletion limit).1 = program.ops.length := by
    rw [hcount, Program.length_ops]
    exact min_eq_right h
  rw [hentry, hall] at hrewind
  refine ⟨(hruns.completed ?_).1, ?_⟩
  · rw [hentry]
    exact h
  · exact hrewind.trans (congrArg _ (List.take_length ..))

end Machine

/-! ## Bytes -/

theorem lowByte_add (x y : UInt8) : lowByte ((x.toNat : Int) + y.toNat) = x + y := by
  have hbyte := toNat_lowByte ((x.toNat : Int) + y.toNat)
  rw [← UInt8.toNat_inj, UInt8.toNat_add]
  omega

theorem lowByte_sub (x y : UInt8) : lowByte ((x.toNat : Int) - y.toNat) = x - y := by
  have hbyte := toNat_lowByte ((x.toNat : Int) - y.toNat)
  have hx := x.toNat_lt
  have hy := y.toNat_lt
  rw [← UInt8.toNat_inj, UInt8.toNat_sub]
  omega

theorem lowByte_toNat (x : UInt8) : lowByte (x.toNat : Int) = x := by
  have hbyte := toNat_lowByte x.toNat
  have hx := x.toNat_lt
  rw [← UInt8.toNat_inj]
  omega

namespace State

/-! ## The presets on a state -/

/-- what is left where the byte at the program counter is copied to the following cell, in a memory of `n` cells -/
structure Copied (n : ℕ) (s s' : State) : Prop where
  target : s'.memory.cells[(s.registers.pc.toNat + 1) % n]? = some (s.memory.read s.registers.pc.toNat)
  others : ∀ a, a ≠ (s.registers.pc.toNat + 1) % n → s'.memory.cells[a]? = s.memory.cells[a]?
  pc : s'.registers.pc.toNat = (s.registers.pc.toNat + 1) % n

/-- what is left where the byte at the program counter is fetched and the counter moved on, in a memory of `n` cells -/
structure Fetched (n : ℕ) (s s' : State) : Prop where
  ir : s'.registers.ir = s.memory.read s.registers.pc.toNat
  mdr : s'.registers.mdr = s.memory.read s.registers.pc.toNat
  mar : s'.registers.mar = s.registers.pc
  pc : s'.registers.pc.toNat = (s.registers.pc.toNat + 1) % n
  memory : s'.memory = s.memory

/-- what is left where sum, difference and conjunction of the first two registers go to the next three -/
structure Calculated (s s' : State) : Prop where
  sum : 2 < s.registers.count → s'.registers.general[2]? = some (s.registers.read 0 + s.registers.read 1)
  difference : 3 < s.registers.count → s'.registers.general[3]? = some (s.registers.read 0 - s.registers.read 1)
  conjunction : 4 < s.registers.count → s'.registers.general[4]? = some (s.registers.read 0 &&& s.registers.read 1)
  others : ∀ k, k ≠ 2 → k ≠ 3 → k ≠ 4 → s'.registers.general[k]? = s.registers.general[k]?
  named : s'.registers = { s.registers with general := s'.registers.general }
  memory : s'.memory = s.memory
  flags : s'.flags = .ofResult (s.registers.read 0 &&& s.registers.read 1)

theorem ops_loadStore : Preset.loadStore.program.ops =
    [.marFromPc, .mdrFromMemory, .advancePc, .marFromPc, .memoryFromMdr] := by
  decide +kernel

theorem ops_fetchDecodeExecute : Preset.fetchDecodeExecute.program.ops =
    [.marFromPc, .mdrFromMemory, .irFromMdr, .advancePc] := by
  decide +kernel

theorem ops_aluOperations : Preset.aluOperations.program.ops =
    [.busAFromRegister 0, .busBFromRegister 1, .aluAdd, .registerFromAlu 2, .latchFlags, .aluSub, .registerFromAlu 3,
      .latchFlags, .aluAnd, .registerFromAlu 4, .latchFlags] := by
  decide +kernel

theorem copied_loadStore {n : ℕ} (hn : 1 ≤ n ∧ n ≤ 256) {s : State} (hsize : s.memory.size = n) :
    s.Copied n (s.executeAll n Preset.loadStore.program.ops) := by
  rw [ops_loadStore]
  have hnext := Registers.toNat_nextPc hn s.registers.pc
  have hlt : (s.registers.pc.toNat + 1) % n < s.memory.size := by
    rw [hsize]
    exact Nat.mod_lt _ hn.1
  -- the write comes after the counter has moved, so it finds the next address
  have hcells : (s.executeAll n [.marFromPc, .mdrFromMemory, .advancePc, .marFromPc, .memoryFromMdr]).memory.cells =
      s.memory.cells.set ((s.registers.pc.toNat + 1) % n) (s.memory.read s.registers.pc.toNat) := by
    rw [← hnext]
    rfl
  refine ⟨?_, fun a ha => ?_, hnext⟩
  · rw [hcells]
    exact List.getElem?_set_self hlt
  · rw [hcells]
    exact List.getElem?_set_ne ha.symm

theorem fetched_fetchDecodeExecute {n : ℕ} (hn : 1 ≤ n ∧ n ≤ 256) (s : State) :
    s.Fetched n (s.executeAll n Preset.fetchDecodeExecute.program.ops) := by
  rw [ops_fetchDecodeExecute]
  exact ⟨rfl, rfl, rfl, Registers.toNat_nextPc hn _, rfl⟩

theorem calculated_aluOperations (n : ℕ) (s : State) :
    s.Calculated (s.executeAll n Preset.aluOperations.program.ops) := by
  rw [ops_aluOperations]
  set x := s.registers.read 0
  set y := s.registers.read 1
  set s' := s.executeAll n [.busAFromRegister 0, .busBFromRegister 1, .aluAdd, .registerFromAlu 2, .latchFlags, .aluSub,
    .registerFromAlu 3, .latchFlags, .aluAnd, .registerFromAlu 4, .latchFlags]
  -- the operands are on the buses before any of the results is written
  have hgeneral : s'.registers.general = ((s.registers.general.set 2 (x + y)).set 3 (x - y)).set 4 (x &&& y) := by
    rw [← lowByte_add, ← lowByte_sub, ← lowByte_toNat (x &&& y)]
    rfl
  have hflags : s'.flags = .ofResult (x &&& y) := by
    have hand := (x &&& y).toNat_lt
    have hresult : (s.latchAlu (x &&& y).toNat).aluFlags = .ofResult (lowByte (x &&& y).toNat) :=
      s.aluFlags_latchAlu (by omega)
    exact hresult.trans (congrArg Flags.ofResult (lowByte_toNat _))
  refine ⟨fun h => ?_, fun h => ?_, fun h => ?_, fun k h2 h3 h4 => ?_, rfl, rfl, hflags⟩
  · rw [hgeneral, List.getElem?_set_ne (by decide), List.getElem?_set_ne (by decide)]
    exact List.getElem?_set_self h
  · rw [hgeneral, List.getElem?_set_ne (by decide)]
    exact List.getElem?_set_self (by simpa [Registers.count] using h)
  · rw [hgeneral]
    exact List.getElem?_set_self (by simpa [Registers.count] using h)
  · rw [hgeneral, List.getElem?_set_ne h4.symm, List.getElem?_set_ne h3.symm, List.getElem?_set_ne h2.symm]

end State

namespace Machine

/-! ## The presets on a machine -/

/-- **The presets do what they describe, on every machine.** Take any machine of a valid configuration whose memory has
the configured size, as operations always leave it (`fitting_performAll`): with any program underway or completed, any
registers, and a program counter that may be outside memory. Load a preset into it and run it, with a bound of at least
its length. Both succeed, and the program is completed. Then load-store has copied the byte at the program counter to the
following cell and left every other cell; and fetch-decode-execute has the byte in its two registers, its address in the
third, and memory as it was; each has moved the program counter on, modulo the memory size. And alu-operations has put
sum, difference and conjunction of the first two registers into those of the next three that are there, left all others
and memory, and latched the flags of the conjunction. -/
theorem presets_do_what_they_describe (m : Machine) (hc : m.config.Valid)
    (hsize : m.state.memory.size = m.config.memorySize) {name : String} {p : Preset} (hp : Preset.find? name = some p)
    {limit : ℕ} (hlimit : p.program.length ≤ limit) :
    ∃ d, m.loadPreset name = .ok d ∧
      let last := (d.runToCompletion limit).2
      last.state.status = .completed ∧
      (p = .loadStore → m.state.Copied m.config.memorySize last.state) ∧
      (p = .fetchDecodeExecute → m.state.Fetched m.config.memorySize last.state) ∧
      (p = .aluOperations → m.state.Calculated last.state) := by
  have hload : m.loadPreset name = .ok (m.loaded p.program (some p.name)) :=
    (loadPreset_eq_ok_iff ..).2 ⟨p, hp, rfl⟩
  have hL : 0 < p.program.length := Preset.length_program_pos (Preset.mem_of_find? hp)
  obtain ⟨hcompleted, hrewind⟩ := m.runToCompletion_loaded (some p.name) hL hlimit
  refine ⟨_, hload, hcompleted, ?_, ?_, ?_⟩
  · rintro rfl
    have hcopied := State.copied_loadStore (s := m.state.rewind) hc.memory hsize
    rw [← hrewind] at hcopied
    exact { hcopied with }
  · rintro rfl
    have hfetched := State.fetched_fetchDecodeExecute hc.memory m.state.rewind
    rw [← hrewind] at hfetched
    exact { hfetched with }
  · rintro rfl
    have hcalculated := State.calculated_aluOperations m.config.memorySize m.state.rewind
    rw [← hrewind] at hcalculated
    exact { hcalculated with }

/-- a running machine with one cell and four registers, whose program counter has been set to where there is no cell -/
def pokedOutside : Machine :=
  (fresh { memorySize := 1, registerCount := 4 }).performAll
    [.load ["PC ← PC + 1", "?"], .writeMemory 0 7, .setRegister 0 200, .setRegister 1 196, .run, .tick, .assign .pc 9]

theorem presets_do_what_they_describe_pokedOutside :
    let m := pokedOutside
    m.config.Valid ∧ m.state.memory.size = m.config.memorySize ∧ m.state.status = .running ∧
    m.state.registers.pc = 9 ∧ m.state.registers.count = 4 ∧
    (∃ d, m.loadPreset " Load-Store " = .ok d ∧
      let last := (d.runToCompletion 5).2
      last.state.status = .completed ∧ last.state.memory.cells[0]? = some 0 ∧ last.state.registers.pc.toNat = 0) ∧
    (∃ d, m.loadPreset "fetch-decode-execute" = .ok d ∧
      let last := (d.runToCompletion 9).2
      last.state.status = .completed ∧ last.state.registers.ir = 0 ∧ last.state.registers.mar = 9 ∧
        last.state.memory.cells[0]? = some 7) ∧
    ∃ d, m.loadPreset "alu-operations" = .ok d ∧
      let last := (d.runToCompletion 11).2
      last.state.status = .completed ∧ last.state.registers.general[2]? = some 140 ∧
        last.state.registers.general[3]? = some 4 ∧ last.state.registers.general[0]? = some 200 ∧
        last.state.flags = ⟨false, true, false, false⟩ := by
  intro m
  have hc : m.config.Valid := ⟨by decide, by decide, by decide⟩
  have hv : m.state.memory.size = m.config.memorySize ∧ m.config.memorySize = 1 ∧ m.state.status = .running ∧
      m.state.registers.pc = 9 ∧ m.state.registers.general = [200, 196, 0, 0] ∧ m.state.memory.cells = [7] := by
    decide +kernel
  obtain ⟨hsize, hone, hrunning, hpc, hgeneral, hcells⟩ := hv
  have hcount : m.state.registers.count = 4 := by rw [Registers.count, hgeneral]; rfl
  have houtside : m.state.memory.read 9 = 0 := by rw [Memory.read, hcells]; rfl
  have hzero : m.state.registers.read 0 = 200 := by rw [Registers.read, hgeneral]; rfl
  have hfirst : m.state.registers.read 1 = 196 := by rw [Registers.read, hgeneral]; rfl
  have hstore : Preset.find? " Load-Store " = some .loadStore := by decide
  have hfetch : Preset.find? "fetch-decode-execute" = some .fetchDecodeExecute := by decide
  have halu : Preset.find? "alu-operations" = some .aluOperations := by decide
  have hfive : Preset.loadStore.program.length ≤ 5 := by decide
  have hnine : Preset.fetchDecodeExecute.program.length ≤ 9 := by decide
  have heleven : Preset.aluOperations.program.length ≤ 11 := by decide
  refine ⟨hc, hsize, hrunning, hpc, hcount, ?_, ?_, ?_⟩
  · obtain ⟨d, hd, hcompleted, hcopied, -, -⟩ := presets_do_what_they_describe m hc hsize hstore hfive
    have h := hcopied rfl
    have htarget := h.target
    have hmoved := h.pc
    rw [hone, hpc] at htarget hmoved
    exact ⟨d, hd, hcompleted, htarget.trans (congrArg some houtside), hmoved⟩
  · obtain ⟨d, hd, hcompleted, -, hfetched, -⟩ := presets_do_what_they_describe m hc hsize hfetch hnine
    have h := hfetched rfl
    have hir := h.ir
    rw [hpc] at hir
    refine ⟨d, hd, hcompleted, hir.trans houtside, h.mar.trans hpc, ?_⟩
    rw [h.memory, hcells]
    rfl
  · obtain ⟨d, hd, hcompleted, -, -, hcalculated⟩ := presets_do_what_they_describe m hc hsize halu heleven
    have h := hcalculated rfl
    have hsum := h.sum (by rw [hcount]; decide)
    have hdifference := h.difference (by rw [hcount]; decide)
    have hother := h.others 0 (by decide) (by decide) (by decide)
    have hflags := h.flags
    rw [hzero, hfirst] at hsum hdifference hflags
    rw [hgeneral] at hother
    exact ⟨d, hd, hcompleted, hsum, hdifference, hother, hflags⟩

end Machine

end ByteMachine
