/-
What the flags of a machine tell.

A machine keeps two sets of flags. The flags of the result are written together with it, by every arithmetic statement.
The flags of the user are a copy that a statement takes of them, and they may lag behind. So the first set describes the
result that is there, and the second one that was there; until there is any, everything is clear. Loads keep both sets, a
reset clears both and the result with them, and the snapshot of such a machine brings sets that belong together.

Overflow is never set. Carry is set by a sum that does not fit a byte, cleared by every other arithmetic statement, and
left alone by everything else but resets and imports.

Contents:
- `Flags.Describes`: flags that go with a result;
- `Flags.Regular`: clear flags, or those of some result;
- `State.Disciplined`: what holds of the two sets and the result;
- `Executed.RaisesCarry`: an executed sum that does not fit a byte, where carry was clear;
- `CarryExplained`: if carry has been set, such a sum was executed.

Main statements:
- `State.Disciplined.execute`, `disciplined_kept`: a statement keeps the two sets in order, and so does every change;
- `State.carry_execute`: the carry that a statement leaves;
- `carry_account`: what sets carry in a run;
- `flags_follow_results`: both together, for machines without foreign snapshots.
-/
import Mathlib.Tactic
import ByteMachine.Proofs.Machine.Framing

namespace ByteMachine

/-! ## Flags of a result -/

namespace Flags

/-- the flags go with this result; they can have a carry only if a sum of two bytes can leave this result with one -/
structure Describes (f : Flags) (result : UInt8) : Prop where
  zero : f.zero = true ↔ result = 0
  negative : f.negative = true ↔ 128 ≤ result.toNat
  carry : f.carry = true → result.toNat ≤ 254
  overflow : f.overflow = false

theorem Describes.not_both {f : Flags} {result : UInt8} (h : f.Describes result) :
    ¬(f.zero = true ∧ f.negative = true) := by
  rintro ⟨hz, hn⟩
  have hzero := h.zero.1 hz
  have hlarge := h.negative.1 hn
  rw [hzero] at hlarge
  exact absurd hlarge (by decide)

/-- nothing is set, or they are the flags of some result -/
def Regular (f : Flags) : Prop :=
  f = .clear ∨ ∃ result, f.Describes result

theorem Regular.overflow {f : Flags} (h : f.Regular) : f.overflow = false := by
  rcases h with rfl | ⟨result, h⟩
  · rfl
  · exact h.overflow

theorem Regular.not_both {f : Flags} (h : f.Regular) : ¬(f.zero = true ∧ f.negative = true) := by
  rcases h with rfl | ⟨result, h⟩
  · simp [Flags.clear]
  · exact h.not_both

end Flags

/-! ## States -/

namespace State

/-- The flags of the result describe it, or there has been no result yet. The flags of the user were those of a result,
or have never been latched. -/
structure Disciplined (s : State) : Prop where
  result : (s.aluResult = 0 ∧ s.aluFlags = .clear ∧ s.flags = .clear) ∨ s.aluFlags.Describes s.aluResult
  flags : s.flags.Regular

/-- the arithmetic stage describes the result that it leaves, if the exact one is at most that of a sum of bytes -/
theorem describes_latchAlu (s : State) {exact : Int} (h : exact ≤ 510) :
    (s.latchAlu exact).aluFlags.Describes (s.latchAlu exact).aluResult where
  zero := beq_iff_eq
  negative := decide_eq_true_iff
  carry hc := by
    have hlarge : 255 < exact := of_decide_eq_true hc
    have hbyte := toNat_lowByte exact
    show (lowByte exact).toNat ≤ 254
    omega
  overflow := rfl

/-- a result that does not exceed a byte leaves its own flags, without carry -/
theorem aluFlags_latchAlu (s : State) {exact : Int} (h : exact ≤ 255) :
    (s.latchAlu exact).aluFlags = .ofResult (lowByte exact) := by
  have hcarry : decide ((255 : Int) < exact) = false := decide_eq_false (Int.not_lt.2 h)
  show { Flags.ofResult (lowByte exact) with carry := decide ((255 : Int) < exact) } = _
  rw [hcarry]
  rfl

namespace Disciplined

variable {s : State}

theorem of_latched (s : State) {exact : Int} (h : exact ≤ 510) (hs : s.flags.Regular) :
    (s.latchAlu exact).Disciplined :=
  ⟨.inr (describes_latchAlu s h), hs⟩

/-- the flags of the result are regular, so the user may latch them at any time -/
theorem aluFlags (h : s.Disciplined) : s.aluFlags.Regular := by
  rcases h.result with ⟨-, hclear, -⟩ | hdescribes
  · exact .inl hclear
  · exact .inr ⟨_, hdescribes⟩

/-- **A statement keeps the flags in order.** -/
theorem execute (h : s.Disciplined) (n : ℕ) (op : MicroOp) : (s.execute n op).Disciplined := by
  have ha := s.busA.toNat_lt
  have hb := s.busB.toNat_lt
  cases op with
  | aluAdd => exact of_latched s (by omega) h.flags
  | aluSub => exact of_latched s (by omega) h.flags
  | aluAnd =>
    have hand := (s.busA &&& s.busB).toNat_lt
    exact of_latched s (by omega) h.flags
  | latchFlags =>
    refine ⟨?_, h.aluFlags⟩
    rcases h.result with ⟨hzero, hclear, -⟩ | hdescribes
    · exact .inl ⟨hzero, hclear, hclear⟩
    · exact .inr hdescribes
  | _ => exact ⟨h.result, h.flags⟩

theorem paused (h : s.Disciplined) : s.paused.Disciplined := by
  unfold State.paused
  split_ifs
  · exact ⟨h.result, h.flags⟩
  · exact h

end Disciplined

/-- a result that is zero with everything clear -/
theorem disciplined_of_clear {s : State} (hr : s.aluResult = 0) (ha : s.aluFlags = .clear) (hf : s.flags = .clear) :
    s.Disciplined :=
  ⟨.inl ⟨hr, ha, hf⟩, .inl hf⟩

/-- **The carry that a statement leaves**: that of a sum, none of a difference or a conjunction, and the old one else. -/
theorem carry_execute (n : ℕ) (op : MicroOp) (s : State) :
    (s.execute n op).aluFlags.carry =
      match op with
      | .aluAdd => decide (255 < s.busA.toNat + s.busB.toNat)
      | .aluSub | .aluAnd => false
      | _ => s.aluFlags.carry := by
  have ha := s.busA.toNat_lt
  have hb := s.busB.toNat_lt
  cases op with
  | aluAdd =>
    show decide ((255 : Int) < s.busA.toNat + s.busB.toNat) = _
    rw [decide_eq_decide]
    omega
  | aluSub => exact congrArg Flags.carry (s.aluFlags_latchAlu (by omega))
  | aluAnd =>
    have hand := (s.busA &&& s.busB).toNat_lt
    exact congrArg Flags.carry (s.aluFlags_latchAlu (by omega))
  | _ => rfl

end State

/-- a sum that does not fit a byte, executed where carry was clear -/
def Executed.RaisesCarry (x : Executed) : Prop :=
  x.found.aluFlags.carry = false ∧ x.op = .aluAdd ∧ 255 < x.found.busA.toNat + x.found.busB.toNat

/-- nothing else raises carry -/
theorem Executed.raisesCarry_of_set {x : Executed} {n : ℕ} (h : x.found.aluFlags.carry = false)
    (h' : (x.found.execute n x.op).aluFlags.carry = true) : x.RaisesCarry := by
  rw [State.carry_execute] at h'
  split at h'
  · next hop => exact ⟨h, hop, of_decide_eq_true h'⟩
  · cases h'
  · cases h'
  · rw [h] at h'
    cases h'

namespace Machine

/-! ## Machines without foreign snapshots -/

/-- every change keeps the flags in order, if what is imported has them in order -/
theorem disciplined_kept :
    Kept (Allowed (fun _ => True) fun m => m.state.Disciplined) (fun m => m.state.Disciplined) where
  load _ _ hl h := by
    obtain ⟨-, rfl⟩ := (load_eq_ok_iff ..).1 hl
    exact ⟨h.result, h.flags⟩
  loadPreset _ hl h := by
    obtain ⟨p, -, rfl⟩ := (loadPreset_eq_ok_iff ..).1 hl
    exact ⟨h.result, h.flags⟩
  step {m} h := by
    rcases m.step_cases with ⟨-, hs⟩ | ⟨s, -, -, hs⟩
    · rw [hs]
      exact ⟨h.result, h.flags⟩
    · have hafter := h.execute m.config.memorySize s.op
      rw [hs]
      exact ⟨hafter.result, hafter.flags⟩
  run {m} h := by
    unfold Machine.run
    split_ifs
    · exact h
    · exact ⟨h.result, h.flags⟩
  pause {m} h := by
    rw [m.pause_eq]
    exact h.paused
  reset _ _ := State.disciplined_of_clear rfl rfl rfl
  setRegister _ _ h := ⟨h.result, h.flags⟩
  writeMemory _ _ h := ⟨h.result, h.flags⟩
  assign _ h := ⟨h.result, h.flags⟩
  restore ha hr _ := by
    obtain ⟨other, ho, rfl⟩ := ha
    obtain ⟨-, rfl⟩ := (restore_eq_ok_iff ..).1 hr
    exact ho.paused
  text := allowed_restore_of_text

theorem Homegrown.disciplined {m : Machine} (h : Homegrown (fun _ => True) m) : m.state.Disciplined :=
  h.keeps (fun _ => State.disciplined_of_clear rfl rfl rfl) disciplined_kept

/-! ## What sets carry -/

/-- if carry was clear and is set, one of the executed statements has raised it -/
def CarryExplained (m : Machine) (log : List Executed) (m' : Machine) : Prop :=
  m.state.aluFlags.carry = false → m'.state.aluFlags.carry = true → ∃ x ∈ log, x.RaisesCarry

namespace CarryExplained

variable {m d m' : Machine} {log log' : List Executed}

/-- carry that has not changed needs no explanation -/
theorem of_same (h : m'.state.aluFlags = m.state.aluFlags) : CarryExplained m [] m' := by
  intro hclear hset
  rw [h, hclear] at hset
  cases hset

theorem step (m : Machine) : CarryExplained m m.pending m.step.2 := by
  rcases m.step_pending with ⟨hnone, hs⟩ | ⟨s, hsome, hs⟩
  · rw [hnone, hs]
    exact of_same rfl
  · rw [hsome, hs]
    intro hclear hset
    exact ⟨_, List.mem_singleton_self _, Executed.raisesCarry_of_set hclear hset⟩

theorem trans (h : CarryExplained m log d) (h' : CarryExplained d log' m') : CarryExplained m (log ++ log') m' := by
  intro hclear hset
  cases hd : d.state.aluFlags.carry with
  | true =>
    obtain ⟨x, hx, hraises⟩ := h hclear hd
    exact ⟨x, List.mem_append_left _ hx, hraises⟩
  | false =>
    obtain ⟨x, hx, hraises⟩ := h' hd hset
    exact ⟨x, List.mem_append_right _ hx, hraises⟩

end CarryExplained

/-- a text that holds no snapshot is refused -/
theorem perform_restoreText_of_none (m : Machine) {text : String} (h : (Op.restoreText text).snapshot? = none) :
    (m.perform (.restoreText text)).2 = m := by
  show (m.orRefuse .snapshot (m.restoreText text)).2 = m
  unfold restoreText
  cases ht : Snapshot.ofText text with
  | error e => rfl
  | ok s => simp [Op.snapshot?, ht, Except.toOption] at h

/-- **Imports aside, only sums that do not fit a byte raise carry.** -/
theorem carry_account : Account (fun op => op.snapshot? = none) CarryExplained where
  moved _ _ _ := .of_same rfl
  step := CarryExplained.step
  other {m op} ha hn := by
    by_cases hl : op.isLoad = true
    · rcases m.perform_of_isLoad hl with hs | ⟨program, preset, hs⟩
      · exact .of_same (by rw [hs])
      · exact .of_same (by rw [hs]; rfl)
    · cases op with
      | setRegister | writeMemory | assign => exact .of_same rfl
      | storeMemory address b =>
        rw [perform_storeMemory]
        exact .of_same rfl
      | reset => exact fun _ hset => nomatch hset
      | restore => cases ha
      | restoreText text =>
        rw [perform_restoreText_of_none m ha]
        exact .of_same rfl
      | load | loadSource | loadPreset => exact absurd rfl hl
      | step | tick | run | pause | toggle | runToCompletion => cases hn
  trans := CarryExplained.trans

/-- a difference or a conjunction leaves no carry -/
theorem carry_of_executed {m : Machine} {e : TraceEntry} (h : m.step.1 = .executed e)
    (hd : MicroOp.decode e.operation = .aluSub ∨ MicroOp.decode e.operation = .aluAnd) :
    m.step.2.state.aluFlags.carry = false := by
  obtain ⟨s, -, rfl, hs⟩ := of_step_executed h
  have hop : s.op = .aluSub ∨ s.op = .aluAnd := hd
  rw [hs]
  show (m.state.execute m.config.memorySize s.op).aluFlags.carry = false
  rw [State.carry_execute]
  rcases hop with hop | hop <;> rw [hop]

/-- **The flags follow the results.** Take any machine that was reached by any operations, where snapshots were imported
only from machines reached in the same way. Overflow is clear in both sets of flags, and in neither zero and negative are
set together. Zero and negative say of the result what they should, unless there has been no result, and then both sets
are clear. Carry leaves at most 254. Whatever is done to such a machine without an import, carry goes from clear to set
only when a sum above 255 is executed; and a step that executes a difference or a conjunction leaves it clear. -/
theorem flags_follow_results {m : Machine} (hm : Homegrown (fun _ => True) m) :
    let s := m.state
    (s.aluFlags.overflow = false ∧ s.flags.overflow = false) ∧
    (¬(s.aluFlags.zero = true ∧ s.aluFlags.negative = true) ∧ ¬(s.flags.zero = true ∧ s.flags.negative = true)) ∧
    ((s.aluResult = 0 ∧ s.aluFlags = .clear ∧ s.flags = .clear) ∨
      ((s.aluFlags.zero = true ↔ s.aluResult = 0) ∧ (s.aluFlags.negative = true ↔ 128 ≤ s.aluResult.toNat))) ∧
    (s.aluFlags.carry = true → s.aluResult.toNat ≤ 254) ∧
    (∀ ops : List Op, (∀ op ∈ ops, op.snapshot? = none) → s.aluFlags.carry = false →
      (m.performAll ops).state.aluFlags.carry = true →
      ∃ x ∈ m.executions ops, x.found.aluFlags.carry = false ∧ x.op = .aluAdd ∧
        255 < x.found.busA.toNat + x.found.busB.toNat) ∧
    ∀ e, m.step.1 = .executed e →
      MicroOp.decode e.operation = .aluSub ∨ MicroOp.decode e.operation = .aluAnd →
      m.step.2.state.aluFlags.carry = false := by
  intro s
  have hs : s.Disciplined := hm.disciplined
  refine ⟨⟨hs.aluFlags.overflow, hs.flags.overflow⟩, ⟨hs.aluFlags.not_both, hs.flags.not_both⟩, ?_, ?_,
    fun ops hops => carry_account.performAll m hops, fun e => carry_of_executed⟩
  · rcases hs.result with hclear | hdescribes
    · exact .inl hclear
    · exact .inr ⟨hdescribes.zero, hdescribes.negative⟩
  · intro hc
    rcases hs.result with ⟨-, hclear, -⟩ | hdescribes
    · rw [hclear] at hc
      cases hc
    · exact hdescribes.carry hc

/-- a machine that has brought two bytes to the buses, whose sum is 300 -/
def beforeSum : Machine :=
  (fresh small).performAll
    [.load ["A ← R[0]", "B ← R[1]", "ALU ← A + B", "FLAGS ← ALU.flags", "ALU ← A - B"], .setRegister 0 200,
      .setRegister 1 100, .step, .step]

/-- another machine that takes over from it -/
def sumElsewhere : Machine :=
  (elsewhere.perform (.restore beforeSum.snapshot)).2

theorem flags_follow_results_sumElsewhere :
    let ops : List Op := [.step, .run, .tick]
    let m := sumElsewhere
    let m' := m.performAll ops
    Homegrown (fun _ => True) m' ∧ m.state.aluFlags = .clear ∧ m'.state.aluResult = 44 ∧
    m'.state.flags = m'.state.aluFlags ∧ m'.state.aluFlags.carry = true ∧
    (∃ x ∈ m.executions ops, x.op = .aluAdd ∧ 255 < x.found.busA.toNat + x.found.busB.toNat) ∧
    m'.state.aluFlags.overflow = false ∧ ¬(m'.state.flags.zero = true ∧ m'.state.flags.negative = true) ∧
    ∃ e, m'.step.1 = .executed e ∧ MicroOp.decode e.operation = .aluSub ∧
      m'.step.2.state.aluFlags.carry = false := by
  intro ops m m'
  have hb : Homegrown (fun _ => True) beforeSum :=
    (Homegrown.start (c := small) rfl).performAll (by simp [Op.snapshot?])
  have he : Homegrown (fun _ => True) elsewhere :=
    (Homegrown.start (c := { small with clockIntervalMs := 5 }) rfl).performAll (by simp [Op.snapshot?])
  have hm : Homegrown (fun _ => True) m := he.imported hb rfl
  have hm' : Homegrown (fun _ => True) m' := hm.performAll (by simp [ops, Op.snapshot?])
  have hops : ∀ op ∈ ops, op.snapshot? = none := by simp [ops, Op.snapshot?]
  have hv : m.state.aluFlags = .clear ∧ m'.state.aluResult = 44 ∧ m'.state.flags = m'.state.aluFlags ∧
      m'.state.aluFlags.carry = true ∧
      (m'.program.statement? m'.state.currentStep).map Statement.op = some .aluSub := by decide +kernel
  obtain ⟨hclear, hresult, hlatched, hcarry, hnext⟩ := hv
  obtain ⟨s, hs, hop⟩ := Option.map_eq_some_iff.1 hnext
  obtain ⟨-, -, -, -, hraised, -⟩ := flags_follow_results hm
  obtain ⟨⟨hoverflow, -⟩, ⟨-, hboth⟩, -, -, -, hdifference⟩ := flags_follow_results hm'
  obtain ⟨x, hx, -, hsum⟩ := hraised ops hops (by rw [hclear]; rfl) hcarry
  rcases m'.step_cases with ⟨hle, -⟩ | ⟨s', hs', -, hstep⟩
  · rw [(m'.program.statement?_eq_none_iff _).2 hle] at hs
    cases hs
  · cases hs.symm.trans hs'
    have hex := congrArg Prod.fst hstep
    exact ⟨hm', hclear, hresult, hlatched, hcarry, ⟨x, hx, hsum⟩, hoverflow, hboth, _, hex, hop,
      hdifference _ hex (.inl hop)⟩

end Machine

end ByteMachine
