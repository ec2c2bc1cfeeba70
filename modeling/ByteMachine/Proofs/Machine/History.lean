/-
The history law: how trace, pointer, status and preset name belong together.

The program is executed in passes, from its first statement to its last. A pass ends completed, and the next one begins
at the first statement, whichever way it is begun: by a step that goes back, or by running. So the trace goes through
the program over and over, its length says where the pointer is, and nothing but a load, a reset or an import takes an
entry away. A foreign snapshot could claim any history; one that such a machine has exported cannot.

Contents:
- `History`: the law, for a program that is not empty.

Main statements:
- `History.step`: one step keeps the law;
- `prefix_trace_perform`: an operation that goes on with the trace only adds to it;
- `homegrown_history`: every machine without foreign snapshots obeys the law.
-/
import Mathlib.Tactic
import ByteMachine.Proofs.Machine.Restoring

namespace ByteMachine

/-- a preset is found by its own name -/
theorem Preset.find?_name {p : Preset} (h : p ∈ Preset.all) : Preset.find? p.name = some p := by
  simp only [Preset.all, List.mem_cons, List.not_mem_nil, or_false] at h
  rcases h with rfl | rfl | rfl <;> decide

/-- a statement completes the program exactly when none is left -/
theorem State.statusAfter_eq_completed_iff {status : RunStatus} (h : status ≠ .completed) (next length : ℕ) :
    statusAfter status next length = .completed ↔ length ≤ next := by
  unfold statusAfter
  split_ifs with hl
  · simp [hl]
  · cases status with
    | completed => exact absurd rfl h
    | idle | running | paused => simp [hl]

namespace Machine

/-! ## The law -/

/-- the trace repeats the program, and pointer, status and preset name are what trace and program say -/
structure History (m : Machine) : Prop where
  entry : ∀ i e, m.state.trace[i]? = some e → e.step = i % m.program.length ∧
    (m.program.statement? (i % m.program.length)).map Statement.source = some e.operation
  pointer : m.state.status ≠ .completed → m.state.currentStep = m.state.trace.length % m.program.length
  atEnd : m.state.status = .completed → m.state.currentStep = m.program.length
  passes : m.state.status = .completed → 0 < m.state.trace.length ∧ m.program.length ∣ m.state.trace.length
  preset : ∀ n, m.preset = some n → ∃ p, Preset.find? n = some p ∧ m.program = p.program

namespace History

variable {m : Machine}

/-- an idle machine at the first statement, without trace -/
theorem of_beginning (ht : m.state.trace = []) (hc : m.state.currentStep = 0) (hs : m.state.status = .idle)
    (hp : ∀ n, m.preset = some n → ∃ p, Preset.find? n = some p ∧ m.program = p.program) : History m where
  entry i e he := by simp [ht] at he
  pointer _ := by simp [ht, hc]
  atEnd h := by simp [hs] at h
  passes h := by simp [hs] at h
  preset := hp

/-- the pointer is inside the program exactly as long as the program is not completed -/
theorem currentStep_lt_iff (h : History m) (hL : 0 < m.program.length) :
    m.state.currentStep < m.program.length ↔ m.state.status ≠ .completed := by
  constructor
  · intro hlt hs
    exact absurd (h.atEnd hs) hlt.ne
  · intro hs
    rw [h.pointer hs]
    exact Nat.mod_lt _ hL

theorem completed_iff (h : History m) (hL : 0 < m.program.length) :
    m.state.status = .completed ↔ m.state.currentStep = m.program.length := by
  refine ⟨h.atEnd, fun he => ?_⟩
  by_contra hs
  exact absurd he ((h.currentStep_lt_iff hL).2 hs).ne

/-- a machine that goes back to the first statement after a whole number of passes, and is not completed any more -/
theorem of_restart (h : History m) (hd : m.program.length ∣ m.state.trace.length) (status : RunStatus)
    (hs : status ≠ .completed) :
    History { m with state := { m.state with currentStep := 0, status := status } } where
  entry := h.entry
  pointer _ := (Nat.mod_eq_zero_of_dvd hd).symm
  atEnd hc := absurd hc hs
  passes hc := absurd hc hs
  preset := h.preset

/-- a machine that is not completed, with another status that is not -/
theorem of_status (h : History m) (hc : m.state.status ≠ .completed) (status : RunStatus) (hs : status ≠ .completed) :
    History { m with state := { m.state with status := status } } where
  entry := h.entry
  pointer _ := h.pointer hc
  atEnd hc := absurd hc hs
  passes hc := absurd hc hs
  preset := h.preset

/-- the entry of the statement at the pointer continues the trace -/
theorem entry_append (h : History m) {s : Statement} {remark : String}
    (hs : m.program.statement? m.state.currentStep = some s)
    (hp : m.state.currentStep = m.state.trace.length % m.program.length) (i : ℕ) (e : TraceEntry)
    (he : (m.state.trace ++ [⟨m.state.currentStep, s.source, remark⟩])[i]? = some e) :
    e.step = i % m.program.length ∧
      (m.program.statement? (i % m.program.length)).map Statement.source = some e.operation := by
  rcases lt_trichotomy i m.state.trace.length with hi | rfl | hi
  · rw [List.getElem?_append_left hi] at he
    exact h.entry i e he
  · rw [List.getElem?_concat_length, Option.some.injEq] at he
    subst he
    rw [← hp, hs]
    exact ⟨rfl, rfl⟩
  · rw [List.getElem?_eq_none (by simpa using hi)] at he
    cases he

/-- **A step keeps the law.** It executes the statement that the length of the trace asks for, or begins a new pass
after a completed one. -/
theorem step (h : History m) (hL : 0 < m.program.length) : History m.step.2 := by
  rcases m.step_cases with ⟨hle, hs⟩ | ⟨s, hget, hlt, hs⟩
  · have hc : m.state.status = .completed := by
      by_contra hc
      exact absurd ((h.currentStep_lt_iff hL).2 hc) (Nat.not_lt.2 hle)
    rw [hs]
    unfold State.restart
    rw [if_pos hc]
    exact h.of_restart (h.passes hc).2 _ (by decide)
  · have hn := (h.currentStep_lt_iff hL).1 hlt
    have hp := h.pointer hn
    have hlen : m.state.trace.length + 1 =
        m.program.length * (m.state.trace.length / m.program.length) + (m.state.currentStep + 1) := by
      rw [hp, ← Nat.add_assoc, Nat.div_add_mod]
    have hst := State.statusAfter_eq_completed_iff hn (m.state.currentStep + 1) m.program.length
    rw [hs]
    refine ⟨?_, ?_, ?_, ?_, h.preset⟩ <;>
      simp only [State.record, State.execute_trace, State.execute_status, State.execute_currentStep,
        List.length_append, List.length_singleton]
    · exact h.entry_append hget hp
    · intro hc
      have hlt' : m.state.currentStep + 1 < m.program.length := Nat.not_le.1 fun hle => hc (hst.2 hle)
      rw [hlen, Nat.mul_add_mod, Nat.mod_eq_of_lt hlt']
    · intro hc
      exact le_antisymm hlt (hst.1 hc)
    · intro hc
      have he : m.state.currentStep + 1 = m.program.length := le_antisymm hlt (hst.1 hc)
      refine ⟨Nat.succ_pos _, ?_⟩
      rw [hlen, he]
      exact Dvd.dvd.add (Nat.dvd_mul_right ..) dvd_rfl

theorem run (h : History m) : History m.run := by
  unfold Machine.run isCompleted
  split_ifs with he
  · exact h
  · by_cases hc : m.state.status = .completed
    · simpa [hc] using h.of_restart (h.passes hc).2 .running (by decide)
    · have hL : 0 < m.program.length := m.program.isEmpty_eq_false_iff.1 (by simpa using he)
      have hlt := (h.currentStep_lt_iff hL).2 hc
      simpa [hc, Nat.not_le.2 hlt] using h.of_status hc .running (by decide)

theorem paused (h : History m) : History { m with state := m.state.paused } where
  entry := by simpa using h.entry
  pointer := by simpa using h.pointer
  atEnd := by simpa using h.atEnd
  passes := by simpa using h.passes
  preset := h.preset

end History

/-- every change keeps the law, if what is imported obeys it -/
theorem history_kept :
    Kept (Allowed (fun _ => True) fun m => 0 < m.program.length → History m)
      (fun m => 0 < m.program.length → History m) where
  load _ _ hl _ := by
    obtain ⟨-, rfl⟩ := (load_eq_ok_iff ..).1 hl
    exact fun _ => .of_beginning rfl rfl rfl fun n hn => nomatch hn
  loadPreset _ hl _ := by
    obtain ⟨p, hp, rfl⟩ := (loadPreset_eq_ok_iff ..).1 hl
    refine fun _ => .of_beginning rfl rfl rfl fun n hn => ⟨p, ?_, rfl⟩
    cases hn
    exact Preset.find?_name (Preset.mem_of_find? hp)
  step {m} h hL := by
    rw [step_program] at hL
    exact (h hL).step hL
  run {m} h hL := by
    rw [run_program] at hL
    exact (h hL).run
  pause {m} h := by
    rw [m.pause_eq]
    exact fun hL => (h hL).paused
  reset _ h := fun hL => .of_beginning rfl rfl rfl (h hL).preset
  setRegister n b h := fun hL => { h hL with }
  writeMemory a b h := fun hL => { h hL with }
  assign _ h := fun hL => { h hL with }
  restore ha hr _ := by
    obtain ⟨other, ho, rfl⟩ := ha
    obtain ⟨-, rfl⟩ := (restore_eq_ok_iff ..).1 hr
    exact fun hL => { (ho hL).paused with }
  text := allowed_restore_of_text

/-! ## Operations that go on with the trace -/

/-- the trace begins with the given one -/
theorem prefix_kept (before : List TraceEntry) :
    Kept (fun op => op.continues = true) (fun m => before <+: m.state.trace) where
  load ha ho _ _ := by
    rw [Op.continues_of_isLoad ho] at ha
    cases ha
  loadPreset ha _ _ := nomatch ha
  step {m} h := by
    rcases m.step_cases with ⟨-, hs⟩ | ⟨s, -, -, hs⟩
    · rw [hs]
      exact h
    · rw [hs]
      show before <+: (m.state.execute m.config.memorySize s.op).trace ++ _
      rw [State.execute_trace]
      exact h.trans (List.prefix_append ..)
  run {m} h := by
    unfold Machine.run
    split_ifs
    · exact h
    · exact h
  pause {m} h := by
    rw [m.pause_eq]
    simpa using h
  reset ha _ := nomatch ha
  setRegister _ _ h := h
  writeMemory _ _ h := h
  assign _ h := h
  restore ha _ _ := nomatch ha
  text ha _ := nomatch ha

/-- an operation that goes on with the trace only adds to it -/
theorem prefix_trace_perform (m : Machine) {op : Op} (h : op.continues = true) :
    m.state.trace <+: (m.perform op).2.state.trace :=
  (prefix_kept m.state.trace).perform h (List.prefix_refl _)

/-! ## Machines without foreign snapshots -/

/-- **The history law.** Take any machine with a program that was reached by any operations, where snapshots were
imported only from machines reached in the same way. Entry `i` of its trace is statement `i % L` of the program. It is
completed exactly when the pointer is at the end, and then the trace is one or more whole passes; otherwise the pointer
is at the length of the trace modulo `L`. A preset name tells the truth about the program. The next executed statement
is the one that the trace asks for and is recorded, and no operation but a load, a reset or an import takes an entry
away. -/
theorem homegrown_history {m : Machine} (hm : Homegrown (fun _ => True) m) (hL : 0 < m.program.length) :
    let L := m.program.length
    (∀ i e, m.state.trace[i]? = some e →
      e.step = i % L ∧ (m.program.statement? (i % L)).map Statement.source = some e.operation) ∧
    (m.state.status = .completed ↔ m.state.currentStep = L) ∧
    (m.state.status ≠ .completed → m.state.currentStep = m.state.trace.length % L) ∧
    (m.state.status = .completed → 0 < m.state.trace.length ∧ L ∣ m.state.trace.length) ∧
    (∀ n, m.preset = some n → ∃ p, Preset.find? n = some p ∧ m.program = p.program) ∧
    (∀ e, m.step.1 = .executed e →
      e.step = m.state.trace.length % L ∧ m.step.2.state.trace = m.state.trace ++ [e]) ∧
    ∀ op : Op, op.continues = true → m.state.trace <+: (m.perform op).2.state.trace := by
  intro L
  have h : History m := hm.keeps (fun _ hL => absurd hL (lt_irrefl 0)) history_kept hL
  refine ⟨h.entry, h.completed_iff hL, h.pointer, h.passes, h.preset, ?_, fun op => m.prefix_trace_perform⟩
  intro e he
  rcases m.step_cases with ⟨-, hs⟩ | ⟨s, -, hlt, hs⟩
  · rw [hs] at he
    cases he
  · rw [hs] at he ⊢
    cases he
    refine ⟨h.pointer ((h.currentStep_lt_iff hL).1 hlt), ?_⟩
    simp only [State.record, State.execute_trace]

/-- a preset in its second pass, still running -/
def secondPass : Machine :=
  (fresh small).performAll [.loadPreset "load-store", .runToCompletion 9, .step, .tick, .step, .run, .tick]

/-- another machine that takes over from it and goes on -/
def takenOver : Machine :=
  (elsewhere.perform (.restore secondPass.snapshot)).2.performAll [.step, .toggle, .tick, .pause]

theorem homegrown_history_takenOver :
    Homegrown (fun _ => True) takenOver ∧ 0 < takenOver.program.length ∧
    (∀ i e, takenOver.state.trace[i]? = some e → e.step = i % takenOver.program.length ∧
      (takenOver.program.statement? (i % takenOver.program.length)).map Statement.source = some e.operation) ∧
    takenOver.state.trace.length = 9 ∧ takenOver.state.currentStep = 9 % takenOver.program.length ∧
    ∃ p, Preset.find? "load-store" = some p ∧ takenOver.program = p.program := by
  have hs : Homegrown (fun _ => True) secondPass :=
    (Homegrown.start (c := small) rfl).performAll (by simp [Op.snapshot?])
  have he : Homegrown (fun _ => True) elsewhere :=
    (Homegrown.start (c := { small with clockIntervalMs := 5 }) rfl).performAll (by simp [Op.snapshot?])
  have hm : Homegrown (fun _ => True) takenOver := (he.imported hs rfl).performAll (by simp [Op.snapshot?])
  have hv : 0 < takenOver.program.length ∧ takenOver.state.trace.length = 9 ∧
      takenOver.preset = some "load-store" ∧ takenOver.state.status ≠ .completed := by decide +kernel
  obtain ⟨hL, ht, hn, hc⟩ := hv
  obtain ⟨hentry, -, hpointer, -, hpreset, -⟩ := homegrown_history hm hL
  refine ⟨hm, hL, hentry, ht, ?_, hpreset "load-store" hn⟩
  rw [← ht]
  exact hpointer hc

end Machine

end ByteMachine
