/-
A program written anew does the same.

What a statement does follows from its micro-operation alone. Its source goes into the trace and nowhere else, and
nothing reads it there. So two machines that differ in the sources of their statements, and in the sources that their
traces have kept, stay that way whatever is done to both: every operation does the same to what they have in common.

Contents:
- `State.sourceless`: the state without the sources in its trace;
- `Alike`: machines that differ in sources only; `AlikeResult`: two changes that may be refused make such machines, or
  are refused alike;
- `Alike.change`: a change of the state that does not look at sources, and one lemma for each change that does more.

Main statements:
- `Alike.step`, `Alike.perform`, `Alike.performAll`: a step, an operation and a run keep machines alike;
- `respelling_keeps_meaning`: the canonical texts of a program decode to its micro-operations, and a machine that is
  loaded with them cannot be told from one that is loaded with the program, but for the sources.
-/
import Mathlib.Tactic
import ByteMachine.Proofs.Machine.Kept
import ByteMachine.Proofs.MicroOp.Canonical

namespace ByteMachine

/-! ## States without sources -/

/-- the entry without the source of its statement -/
def TraceEntry.sourceless (e : TraceEntry) : TraceEntry :=
  { e with operation := "" }

namespace State

/-- the state without the sources in its trace; places and results stay -/
def sourceless (s : State) : State :=
  { s with trace := s.trace.map TraceEntry.sourceless }

theorem sourceless_execute (n : ℕ) (op : MicroOp) (s : State) :
    (s.execute n op).sourceless = s.sourceless.execute n op := by
  cases op <;> rfl

theorem remark_sourceless (op : MicroOp) (s : State) : s.sourceless.remark op = s.remark op := by
  cases op <;> rfl

theorem sourceless_record (s : State) (e : TraceEntry) (length : ℕ) :
    (s.record e length).sourceless = s.sourceless.record e.sourceless length := by
  simp [record, sourceless]

theorem sourceless_paused (s : State) : s.paused.sourceless = s.sourceless.paused := by
  by_cases h : s.status = .running <;> simp [paused, sourceless, h]

variable {s t : State}

/-- what a statement leaves is the same, but for its source -/
theorem sourceless_executed (h : t.sourceless = s.sourceless) (n : ℕ) (op : MicroOp) (a b : String) (length : ℕ) :
    ((t.execute n op).record ⟨t.currentStep, b, (t.execute n op).remark op⟩ length).sourceless =
      ((s.execute n op).record ⟨s.currentStep, a, (s.execute n op).remark op⟩ length).sourceless := by
  have hx : (t.execute n op).sourceless = (s.execute n op).sourceless := by
    rw [sourceless_execute, sourceless_execute, h]
  have hr : (t.execute n op).remark op = (s.execute n op).remark op := by
    rw [← remark_sourceless op (t.execute n op), hx, remark_sourceless]
  have hc : t.sourceless.currentStep = s.sourceless.currentStep := by rw [h]
  rw [sourceless_record, sourceless_record, hx, hr]
  exact congrArg (fun i => State.record _ ⟨i, "", _⟩ _) hc

end State

namespace Machine

/-! ## Machines that differ in sources only -/

structure Alike (m d : Machine) : Prop where
  config : d.config = m.config
  preset : d.preset = m.preset
  /-- the statements may be written in other words -/
  ops : d.program.ops = m.program.ops
  state : d.state.sourceless = m.state.sourceless

/-- both changes are refused for the same reason, or both make machines that are alike -/
inductive AlikeResult {ε : Type} : Except ε Machine → Except ε Machine → Prop
  | refused (e : ε) : AlikeResult (.error e) (.error e)
  | made {m d : Machine} (h : Alike m d) : AlikeResult (.ok m) (.ok d)

theorem AlikeResult.orRefuse {ε : Type} {m d : Machine} {toError : ε → OpError} {r r' : Except ε Machine}
    (hr : AlikeResult r r') (h : Alike m d) : Alike (m.orRefuse toError r).2 (d.orRefuse toError r').2 := by
  cases hr with
  | refused e => exact h
  | made h' => exact h'

namespace Alike

variable {m d : Machine}

theorem length_program (h : Alike m d) : d.program.length = m.program.length := by
  rw [← Program.length_ops, h.ops, Program.length_ops]

theorem isEmpty_program (h : Alike m d) : d.program.isEmpty = m.program.isEmpty := by
  rw [← Program.isEmpty_ops, h.ops, Program.isEmpty_ops]

theorem currentStep (h : Alike m d) : d.state.currentStep = m.state.currentStep := by
  show d.state.sourceless.currentStep = m.state.sourceless.currentStep
  rw [h.state]

theorem status (h : Alike m d) : d.state.status = m.state.status := by
  show d.state.sourceless.status = m.state.sourceless.status
  rw [h.state]

theorem memory (h : Alike m d) : d.state.memory = m.state.memory := by
  show d.state.sourceless.memory = m.state.sourceless.memory
  rw [h.state]

theorem isRunning (h : Alike m d) : d.isRunning = m.isRunning := by
  rw [Machine.isRunning, Machine.isRunning, h.status]

theorem isCompleted (h : Alike m d) : d.isCompleted = m.isCompleted := by
  rw [Machine.isCompleted, Machine.isCompleted, h.status]

/-- a change of the state that does not look at sources keeps machines alike -/
theorem change (h : Alike m d) (f : State → State) (hf : ∀ s, (f s).sourceless = f s.sourceless) :
    Alike { m with state := f m.state } { d with state := f d.state } :=
  { h with state := by rw [hf, hf, h.state] }

/-! ### Driving -/

/-- **A step keeps machines alike.** -/
theorem step (h : Alike m d) : Alike m.step.2 d.step.2 := by
  have hop : (d.program.statement? d.state.currentStep).map Statement.op =
      (m.program.statement? m.state.currentStep).map Statement.op := by
    rw [← Program.getElem?_ops, ← Program.getElem?_ops, h.ops, h.currentStep]
  unfold Machine.step
  cases hm : m.program.statement? m.state.currentStep with
  | none =>
    have hd : d.program.statement? d.state.currentStep = none := by simpa [hm] using hop
    rw [hd]
    exact h.change State.restart fun s => rfl
  | some s =>
    obtain ⟨t, hd, ht⟩ : ∃ t, d.program.statement? d.state.currentStep = some t ∧ t.op = s.op := by
      simpa [hm] using hop
    rw [hd]
    refine { h with state := ?_ }
    simp only [ht, h.config, h.length_program]
    exact State.sourceless_executed h.state ..

theorem run (h : Alike m d) : Alike m.run d.run := by
  unfold Machine.run
  rw [h.isEmpty_program, h.isCompleted, h.length_program, h.currentStep]
  split_ifs
  · exact h
  all_goals exact h.change (fun s => { s with currentStep := _, status := .running }) fun s => rfl

theorem pause (h : Alike m d) : Alike m.pause d.pause := by
  rw [m.pause_eq, d.pause_eq]
  exact h.change State.paused State.sourceless_paused

theorem tick (h : Alike m d) : Alike m.tick.2 d.tick.2 := by
  unfold Machine.tick
  rw [h.isRunning]
  split_ifs
  · exact h.step
  · exact h

theorem toggle (h : Alike m d) : Alike m.toggle d.toggle := by
  unfold Machine.toggle
  rw [h.isRunning]
  split_ifs
  · exact h.pause
  · exact h.run

theorem runFor (h : Alike m d) (limit : ℕ) : Alike (m.runFor limit).2 (d.runFor limit).2 := by
  induction limit generalizing m d with
  | zero => exact h
  | succ limit ih =>
    unfold Machine.runFor
    rw [h.isRunning]
    split_ifs
    · exact ih h.step
    · exact h

theorem runToCompletion (h : Alike m d) (limit : ℕ) :
    Alike (m.runToCompletion limit).2 (d.runToCompletion limit).2 := by
  unfold Machine.runToCompletion
  split_ifs
  · exact h
  · exact (h.run.runFor limit).pause

/-! ### Loading, storing and importing -/

/-- what is loaded may be written in other words too -/
theorem load (h : Alike m d) {p q : Program} (hpq : q.ops = p.ops) : AlikeResult (m.load p) (d.load q) := by
  unfold Machine.load
  rw [← Program.isEmpty_ops q, hpq, Program.isEmpty_ops]
  split_ifs
  · exact .refused _
  · exact .made { h.change State.rewind fun s => rfl with preset := rfl, ops := hpq }

theorem loadSource (h : Alike m d) (source : String) : AlikeResult (m.loadSource source) (d.loadSource source) := by
  unfold Machine.loadSource
  cases Program.assemble source with
  | error e => exact .refused _
  | ok p => exact h.load rfl

theorem loadPreset (h : Alike m d) (name : String) : AlikeResult (m.loadPreset name) (d.loadPreset name) := by
  unfold Machine.loadPreset
  cases Preset.find? name with
  | none => exact .refused _
  | some p =>
    have hl := h.load (p := p.program) rfl
    dsimp only
    generalize m.load p.program = r, d.load p.program = r' at hl
    cases hl with
    | refused e => exact .refused e
    | made h' => exact .made { h' with preset := rfl }

theorem storeMemory (h : Alike m d) (address : ℕ) (b : UInt8) :
    AlikeResult (m.storeMemory address b) (d.storeMemory address b) := by
  unfold Machine.storeMemory
  rw [h.memory]
  cases m.state.memory.store address b with
  | error e => exact .refused e
  | ok memory => exact .made (h.change (fun s => { s with memory }) fun s => rfl)

theorem restore (h : Alike m d) (s : Snapshot) : AlikeResult (m.restore s) (d.restore s) := by
  unfold Machine.restore
  rw [h.config]
  cases s.check m.config with
  | error e => exact .refused e
  | ok _ => exact .made { config := rfl, preset := rfl, ops := rfl, state := rfl }

theorem restoreText (h : Alike m d) (text : String) : AlikeResult (m.restoreText text) (d.restoreText text) := by
  unfold Machine.restoreText
  cases Snapshot.ofText text with
  | error e => exact .refused e
  | ok s => exact h.restore s

/-! ### Operations -/

/-- **An operation keeps machines alike.** -/
theorem perform (h : Alike m d) (op : Op) : Alike (m.perform op).2 (d.perform op).2 := by
  cases op with
  | load texts => exact (h.load rfl).orRefuse h
  | loadSource source => exact (h.loadSource source).orRefuse h
  | loadPreset name => exact (h.loadPreset name).orRefuse h
  | step => exact h.step
  | tick => exact h.tick
  | run => exact h.run
  | pause => exact h.pause
  | toggle => exact h.toggle
  | runToCompletion limit => exact h.runToCompletion limit
  | reset => exact h.change State.reset fun s => rfl
  | setRegister n b => exact h.change (fun s => { s with registers := s.registers.write n b }) fun s => rfl
  | writeMemory address b => exact h.change (fun s => { s with memory := s.memory.write address b }) fun s => rfl
  | storeMemory address b => exact (h.storeMemory address b).orRefuse h
  | assign name b => exact h.change (fun s => { s with registers := s.registers.assign name b }) fun s => rfl
  | restore s => exact (h.restore s).orRefuse h
  | restoreText text => exact (h.restoreText text).orRefuse h

/-- **A whole run keeps machines alike**, whatever its operations are. -/
theorem performAll (h : Alike m d) (ops : List Op) : Alike (m.performAll ops) (d.performAll ops) := by
  induction ops generalizing m d with
  | nil => exact h
  | cons op ops ih =>
    rw [performAll_cons, performAll_cons]
    exact ih (h.perform op)

end Alike

/-! ## Programs written anew -/

/-- **A program written anew does the same.** Take the micro-operations of any program and write each of them as its
canonical text. Decoding gives the same micro-operation at every place; it undoes writing on everything that it can
give, and it can give each register of at most 64 bits. Any machine that is loaded with the new texts is, after any
operations, in the state of one that is loaded with the old ones, but for the sources in the trace. -/
theorem respelling_keeps_meaning (m : Machine) (texts : List String) :
    let p := Program.ofTexts texts
    let respelling := p.ops.map MicroOp.text
    let q := Program.ofTexts respelling
    q.length = p.length ∧
    (∀ i, (q.statement? i).map Statement.op = (p.statement? i).map Statement.op) ∧
    (∀ s, MicroOp.decode (MicroOp.decode s).text = MicroOp.decode s) ∧
    (∀ n < Text.bound64, ∀ op ∈ [MicroOp.busAFromRegister n, .busBFromRegister n, .registerFromAlu n],
      MicroOp.decode op.text = op) ∧
    ∀ ops : List Op,
      ((m.perform (.load respelling)).2.performAll ops).state.sourceless =
        ((m.perform (.load texts)).2.performAll ops).state.sourceless := by
  intro p respelling q
  have hpq : q.ops = p.ops := p.ops_respelled
  refine ⟨?_, fun i => ?_, MicroOp.decode_text_decode, fun n hn op hop => ?_, fun ops => ?_⟩
  · rw [← Program.length_ops, hpq, Program.length_ops]
  · rw [← Program.getElem?_ops, hpq, Program.getElem?_ops]
  · simp only [List.mem_cons, List.not_mem_nil, or_false] at hop
    rcases hop with rfl | rfl | rfl
    · exact MicroOp.decode_text_toBus hn (.inl ⟨rfl, rfl⟩)
    · exact MicroOp.decode_text_toBus hn (.inr ⟨rfl, rfl⟩)
    · exact MicroOp.decode_text_registerFromAlu hn
  · have hm : Alike m m := ⟨rfl, rfl, rfl, rfl⟩
    exact (((hm.load hpq).orRefuse hm).performAll ops).state

/-- blanks, small letters, other arrows, leading zeros, and what is no transfer, one because of its large number -/
def crooked : List String :=
  ["  a<-r[007] ", "r[ 1 ] <- alu", "b = r2", "B ← R18446744073709551615", "r18446744073709551616←alu", " straße"]

theorem respelling_keeps_meaning_crooked :
    let respelling := ["A ← R[7]", "R[1] ← ALU", "b = r2", "B ← R[18446744073709551615]",
      "r18446744073709551616←alu", "straße"]
    let last := 2 ^ 64 - 1
    let after (texts : List String) : State :=
      ((standard.perform (.load texts)).2.performAll [.setRegister 7 5, .run, .tick, .pause, .step]).state
    (Program.ofTexts crooked).ops.map MicroOp.text = respelling ∧
    last < Text.bound64 ∧ MicroOp.decode (MicroOp.registerFromAlu last).text = .registerFromAlu last ∧
    (after crooked).busA = 5 ∧ after respelling ≠ after crooked ∧
    (after respelling).sourceless = (after crooked).sourceless := by
  intro respelling last after
  have hv : (Program.ofTexts crooked).ops.map MicroOp.text = respelling ∧ last < Text.bound64 ∧
      (after crooked).busA = 5 ∧ after respelling ≠ after crooked := by decide +kernel
  obtain ⟨htexts, hlast, hbus, hne⟩ := hv
  obtain ⟨-, -, -, hregister, hafter⟩ := respelling_keeps_meaning standard crooked
  refine ⟨htexts, hlast, hregister last hlast _ (by simp), hbus, hne, ?_⟩
  rw [htexts] at hafter
  exact hafter _

end Machine

end ByteMachine
