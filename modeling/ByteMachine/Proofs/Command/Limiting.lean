/-
What the limit line says.

A bounded run reports that it has reached its limit whenever the machine is not completed after it. Nothing else that is
printed begins with the warning sign of that line, so it is there exactly then. A machine with a program that is not
completed after the run has used its bound up. Program texts and presets always have a statement, so the line tells the
truth about them. A snapshot may have no program at all. Its machine does not run, executes nothing, and is reported all
the same.

Contents:
- `Unwarned`: a line that does not begin with the warning sign;
- `Execution.limitLine_mem_lines_iff`: when a run is reported as limited;
- `Setup.unwarned_notice`: what is said while a machine is prepared;
- `Machine.runToCompletion_of_empty`: a run without a program;
- `Setup.snapshot_of_empty`: only snapshots have no program.

Main statements:
- `limitLine_mem_runOutcome_iff`: the limit line is printed exactly if the machine is not completed;
- `limit_line_exact`: it is true exactly if there is a program, or nothing may be executed;
- `limit_line_without_program`: a snapshot for which it is not.
-/
import Mathlib.Tactic
import ByteMachine.Command.Usage
import ByteMachine.Proofs.Command.Preparing
import ByteMachine.Proofs.Machine.Completing
import ByteMachine.Proofs.Program.Reassembling

namespace ByteMachine

open Execution (limitLine)

/-! ## Lines that are no warnings -/

/-- a line that does not begin with the warning sign of the limit line -/
def Unwarned (line : String) : Prop :=
  line.toList.head? ≠ some '⚠'

theorem not_unwarned_limitLine (limit : ℕ) : ¬Unwarned (limitLine limit) := by
  unfold limitLine Unwarned
  rw [String.append_assoc, String.toList_append, not_not]
  rfl

/-- an entry of the trace begins with a digit -/
theorem TraceEntry.unwarned_line (e : TraceEntry) : Unwarned e.line := by
  have hdigits : ∃ c cs, (Text.padded 2 e.step).toList = c :: cs ∧ Text.isDigit c = true := by
    obtain ⟨c, cs, h, hc⟩ := Text.exists_decimal_eq_cons e.step
    rw [Text.padded_two, String.toList_append, Text.numeral, String.toList_ofList, h]
    split_ifs
    · exact ⟨'0', _, rfl, rfl⟩
    · exact ⟨c, _, rfl, hc⟩
  obtain ⟨c, cs, h, hc⟩ := hdigits
  have hsign : c ≠ '⚠' := by
    rintro rfl
    exact absurd hc (by decide)
  unfold TraceEntry.line Unwarned
  simp only [String.toList_append, h, List.cons_append, List.head?_cons]
  simpa using hsign

/-- texts that are joined begin like the first of them -/
theorem unwarned_intercalate {texts : List String} (h : ∀ t ∈ texts, ∃ cs, t.toList = 'R' :: cs) (separator : String) :
    Unwarned (separator.intercalate texts) := by
  unfold Unwarned
  rw [String.toList_intercalate]
  cases texts with
  | nil => simp
  | cons t ts =>
    obtain ⟨cs, ht⟩ := h t List.mem_cons_self
    cases ts with
    | nil => simp [ht]
    | cons u us => simp [ht, List.intercalate_cons_cons]

/-- the lines on the state begin with letters -/
theorem State.unwarned_lines (s : State) : ∀ line ∈ s.lines, Unwarned line := by
  intro line hline
  simp only [State.lines, List.mem_cons, List.not_mem_nil, or_false] at hline
  rcases hline with rfl | rfl | rfl | rfl | rfl
  · simp [Unwarned]
  · refine unwarned_intercalate (fun t ht => ?_) _
    obtain ⟨⟨b, n⟩, -, rfl⟩ := List.mem_map.1 ht
    simp
  · simp [Unwarned]
  · simp [Unwarned]
  · simp [Unwarned]

theorem Execution.unwarned_of_mem_lines {e : Execution} {trace : Bool} {line : String} (h : line ∈ e.lines trace) :
    Unwarned line ∨ line ∈ e.limitLines := by
  have htrace : ∀ line ∈ (if trace then e.entries.map TraceEntry.line else []), Unwarned line := by
    intro line hline
    split_ifs at hline
    · obtain ⟨entry, -, rfl⟩ := List.mem_map.1 hline
      exact entry.unwarned_line
    · cases hline
  simp only [Execution.lines, List.mem_append] at h
  rcases h with (((h | h) | h) | h) | h
  · revert line
    simp [Unwarned]
  · exact .inl (htrace line h)
  · simp only [List.mem_cons, List.not_mem_nil, or_false] at h
    rcases h with rfl | rfl | rfl | rfl <;> exact .inl (by simp [Unwarned])
  · exact .inl (e.after.state.unwarned_lines line h)
  · exact .inr h

/-- **When a run is reported as limited**: exactly if the machine is not completed after it. -/
theorem Execution.limitLine_mem_lines_iff (e : Execution) (trace : Bool) :
    limitLine e.limit ∈ e.lines trace ↔ e.after.state.status ≠ .completed := by
  constructor
  · intro h hcompleted
    rcases unwarned_of_mem_lines h with h | h
    · exact not_unwarned_limitLine _ h
    · have hnone : e.limitLines = [] := if_pos (by simpa [Machine.isCompleted] using hcompleted)
      rw [hnone] at h
      cases h
  · intro h
    exact e.mem_lines_of_incomplete trace (by simpa [Machine.isCompleted] using h)

/-! ## The limit line of a command -/

/-- what is said of the program says how it came to be there -/
theorem Setup.unwarned_notice {s : Setup} {d : Directory} {p : Prepared} (h : s.prepare d = .ok p) :
    Unwarned p.notice := by
  obtain ⟨c, q, -, -, hl, -, hp⟩ := (prepare_eq_ok_iff ..).1 h
  rw [hp]
  show Unwarned q.notice
  unfold loaded at hl
  cases hs : s.source with
  | preset name =>
    simp only [hs, bind_eq_ok_iff] at hl
    obtain ⟨m, -, hq⟩ := hl
    cases hq
    simp [Unwarned]
  | program path =>
    simp only [hs, bind_eq_ok_iff, assembleIn] at hl
    obtain ⟨source, -, program, -, m, -, hq⟩ := hl
    cases hq
    simp [Unwarned]
  | snapshot path =>
    simp only [hs, bind_eq_ok_iff] at hl
    obtain ⟨snapshot, -, m, -, hq⟩ := hl
    cases hq
    simp [Unwarned]

/-- saving adds one line at most, and no warning -/
theorem Outcome.mem_out_saving {o : Outcome} {m : Machine} {saveTo : Option String} {line : String} :
    line ∈ (o.saving m saveTo).out → line ∈ o.out ∨ Unwarned line := by
  intro h
  unfold saving at h
  split at h
  · exact .inl h
  · split at h
    · rcases List.mem_append.1 h with h | h
      · exact .inl h
      · rw [List.mem_singleton.1 h]
        exact .inr (by simp [Unwarned])
    · exact .inl h

theorem Outcome.mem_out_saving_of_mem {o : Outcome} {line : String} (h : line ∈ o.out) (m : Machine)
    (saveTo : Option String) : line ∈ (o.saving m saveTo).out := by
  unfold saving
  split
  · exact h
  · split
    · exact List.mem_append_left _ h
    · exact h

/-- **The limit line is printed** exactly if the machine is not completed after the run. -/
theorem limitLine_mem_runOutcome_iff {s : Setup} {d : Directory} {p : Prepared} (hp : s.prepare d = .ok p)
    (limit : ℕ) (trace : Bool) (saveTo : Option String) :
    limitLine limit ∈ (runOutcome d s limit trace saveTo).out ↔
      (Execution.mk p.machine limit).after.state.status ≠ .completed := by
  rw [← Execution.limitLine_mem_lines_iff _ trace, runOutcome, hp]
  constructor
  · intro h
    rcases Outcome.mem_out_saving h with h | h
    · rcases List.mem_append.1 h with h | h
      · have hnotice := List.mem_singleton.1 h
        exact absurd (hnotice ▸ Setup.unwarned_notice hp) (not_unwarned_limitLine limit)
      · exact h
    · exact absurd h (not_unwarned_limitLine limit)
  · intro h
    exact Outcome.mem_out_saving_of_mem (List.mem_append_right _ h) _ _

/-! ## Runs without a program -/

/-- without a program nothing is executed -/
theorem Machine.runToCompletion_of_empty {m : Machine} (hL : m.program.length = 0)
    (hs : m.state.status ≠ .running) (limit : ℕ) : m.runToCompletion limit = (0, m) := by
  have hempty : m.program.isEmpty = true := List.isEmpty_iff_length_eq_zero.2 hL
  have hrun : m.run = m := if_pos hempty
  have hpause : m.pause = m := if_neg (by simpa [isRunning] using hs)
  rw [runToCompletion, hrun, runFor_of_not_running hs]
  split_ifs
  · rfl
  · exact congrArg (Prod.mk 0) hpause

theorem Setup.loaded_preset {s : Setup} {d : Directory} {m : Machine} {q : Prepared} {name : String}
    (hs : s.source = .preset name) (h : s.loaded d m = .ok q) : m.loadPreset name = .ok q.machine := by
  unfold loaded at h
  simp only [hs, bind_eq_ok_iff, mapError_eq_ok_iff] at h
  obtain ⟨machine, hm, hq⟩ := h
  cases hq
  exact hm

/-- a text and a preset have a statement; only a snapshot may have none -/
theorem Setup.snapshot_of_empty {s : Setup} {d : Directory} {p : Prepared} (h : s.prepare d = .ok p)
    (hL : p.machine.program.length = 0) : ∃ path, s.source = .snapshot path := by
  obtain ⟨c, q, -, -, hl, hseed, -⟩ := (prepare_eq_ok_iff ..).1 h
  have hkept : p.machine.program = q.machine.program :=
    seed_induction (P := fun m => m.program = q.machine.program) (fun _ _ h => h) (fun _ _ h => h) hseed rfl
  rw [hkept] at hL
  cases hs : s.source with
  | program path =>
    obtain ⟨program, hp⟩ := loaded_program hs hl
    obtain ⟨hpos, hm⟩ := (Machine.load_eq_ok_iff ..).1 hp
    rw [hm] at hL
    exact absurd hL hpos.ne'
  | preset name =>
    obtain ⟨preset, hfind, hm⟩ := (Machine.loadPreset_eq_ok_iff ..).1 (loaded_preset hs hl)
    rw [hm] at hL
    exact absurd hL (Preset.length_program_pos (Preset.mem_of_find? hfind)).ne'
  | snapshot path => exact ⟨path, rfl⟩

/-! ## What the limit line says -/

namespace Execution

variable {e : Execution}

/-- as many entries are added to the trace as statements are executed -/
theorem length_entries (hs : e.before.state.status ≠ .running) : e.entries.length = e.executed := by
  have hsame : e.before.runToCompletion e.limit = (0, e.before) → e.entries.length = e.executed := by
    intro h
    rw [entries, after, executed, h, List.drop_length]
    rfl
  rcases Nat.eq_zero_or_pos e.before.program.length with hL | hL
  · exact hsame (Machine.runToCompletion_of_empty hL hs e.limit)
  · rcases Nat.eq_zero_or_pos e.limit with hlimit | hlimit
    · exact hsame (by rw [hlimit, Machine.runToCompletion_zero])
    · have hrun := Machine.runsTo_runToCompletion hL hlimit
      obtain ⟨entries, htrace, hplaces, -⟩ := hrun.trace
      have hlength := congrArg List.length hplaces
      rw [List.length_map, List.length_range'] at hlength
      rw [Execution.entries, after, htrace, List.drop_left, hlength, executed]

/-- a run of a program that does not complete it has used its bound up -/
theorem executed_eq_limit (hL : 0 < e.before.program.length) (h : e.after.state.status ≠ .completed) :
    e.executed = e.limit := by
  rcases Nat.eq_zero_or_pos e.limit with hlimit | hlimit
  · rw [executed, hlimit, Machine.runToCompletion_zero]
  · have hrun := Machine.runsTo_runToCompletion hL hlimit
    have hshort : e.limit < e.before.program.length - e.before.entryPoint :=
      Nat.lt_of_not_le fun hle => h (hrun.completed hle).1
    rw [executed, hrun.count, min_eq_left hshort.le]

end Execution

/-- **What the limit line says**, after any setup that succeeds and with any bound.
1. The line is printed exactly if the machine is not completed after the run.
2. If it is printed, then as many statements as the bound allows have been executed, exactly if there is a program or
the bound is zero.
3. The statements that were executed are the ones that the run added to the trace.
4. If there is no program, then it came with a snapshot, and the run changed nothing. -/
theorem limit_line_exact {s : Setup} {d : Directory} {p : Prepared} (hp : s.prepare d = .ok p) (limit : ℕ)
    (trace : Bool) (saveTo : Option String) (keys : List Key) :
    let e : Execution := ⟨p.machine, limit⟩
    let out := ((Command.run s limit trace saveTo).perform d keys).out
    (limitLine limit ∈ out ↔ e.after.state.status ≠ .completed) ∧
    (limitLine limit ∈ out → (e.executed = limit ↔ 0 < p.machine.program.length ∨ limit = 0)) ∧
    e.entries.length = e.executed ∧
    (p.machine.program.length = 0 → (∃ path, s.source = .snapshot path) ∧ e.executed = 0 ∧ e.after = p.machine) := by
  intro e out
  obtain ⟨-, -, -, hstatus⟩ := Setup.prepared_fitting hp
  have hprinted : limitLine limit ∈ out ↔ e.after.state.status ≠ .completed :=
    limitLine_mem_runOutcome_iff hp limit trace saveTo
  have hempty : p.machine.program.length = 0 → e.executed = 0 ∧ e.after = p.machine := by
    intro hL
    have h := Machine.runToCompletion_of_empty hL hstatus limit
    exact ⟨congrArg Prod.fst h, congrArg Prod.snd h⟩
  refine ⟨hprinted, fun h => ⟨fun hexecuted => ?_, fun hcause => ?_⟩, Execution.length_entries hstatus, fun hL => ?_⟩
  · rcases Nat.eq_zero_or_pos p.machine.program.length with hL | hL
    · exact .inr (hexecuted.symm.trans (hempty hL).1)
    · exact .inl hL
  · rcases hcause with hL | hlimit
    · exact Execution.executed_eq_limit hL (hprinted.1 h)
    · show (p.machine.runToCompletion limit).1 = limit
      rw [hlimit, Machine.runToCompletion_zero]
  · exact ⟨Setup.snapshot_of_empty hp hL, hempty hL⟩

/-- a setup with nothing but a cell that is set: the first preset -/
def pokedSetup : Setup where
  cells := [(0, 9)]

/-- stopped halfway -/
theorem limit_line_exact_halfway :
    ∃ p, pokedSetup.prepare {} = .ok p ∧ (Execution.mk p.machine 2).after.state.status = .paused ∧
      limitLine 2 ∈ ((Command.run pokedSetup 2 true none).perform {} []).out ∧
      (Execution.mk p.machine 2).executed = 2 := by
  have hv : (pokedSetup.prepare {}).toOption.map
      (fun p => (p.machine.program.length, (Execution.mk p.machine 2).after.state.status)) = some (4, .paused) := by
    decide +kernel
  cases hp : pokedSetup.prepare {} with
  | error h =>
    rw [hp] at hv
    cases hv
  | ok p =>
    rw [hp] at hv
    obtain ⟨hlength, hstatus⟩ := Prod.mk.inj (Option.some.inj hv)
    obtain ⟨hprinted, htrue, -⟩ := limit_line_exact hp 2 true none []
    have hline := hprinted.2 (by rw [hstatus]; exact RunStatus.noConfusion)
    exact ⟨p, rfl, hstatus, hline, (htrue hline).2 (.inl (by rw [hlength]; decide))⟩

/-- a snapshot without a program, its fields in order, and a configuration that it fits -/
def unprogrammed : Directory :=
  .ofTexts [
    ("s.json", "[[], [[[1, 2], 1, 2, 3, 4], [9, 8, 7, 6], 10, 11, 12, [false, true, false, false], " ++
      "[true, false, true, true], 0, [], \"paused\"], null]"),
    ("c.json", "\x7b\"memorySize\":4,\"registerCount\":2\x7d")]

def unprogrammedSetup : Setup where
  source := .snapshot "s.json"
  config := some "c.json"

/-- **A limit line that is not true**: the limit is ten thousand, and nothing has been executed. -/
theorem limit_line_without_program :
    ∃ p, unprogrammedSetup.prepare unprogrammed = .ok p ∧
      Command.ofArguments ["run", "--import", "s.json", "-c", "c.json"] =
        .ok (.run unprogrammedSetup 10000 false none) ∧
      limitLine 10000 ∈ ((Command.run unprogrammedSetup 10000 false none).perform unprogrammed []).out ∧
      (Execution.mk p.machine 10000).executed = 0 := by
  have hv : (unprogrammedSetup.prepare unprogrammed).toOption.map
      (fun p => (p.machine.program.length, p.machine.state.status)) = some (0, .paused) := by
    decide +kernel
  cases hp : unprogrammedSetup.prepare unprogrammed with
  | error h =>
    rw [hp] at hv
    cases hv
  | ok p =>
    rw [hp] at hv
    obtain ⟨hlength, hstatus⟩ := Prod.mk.inj (Option.some.inj hv)
    have hrun := Machine.runToCompletion_of_empty hlength (by rw [hstatus]; exact RunStatus.noConfusion) 10000
    refine ⟨p, rfl, by decide +kernel, (limitLine_mem_runOutcome_iff hp 10000 false none).2 ?_,
      congrArg Prod.fst hrun⟩
    rw [Execution.after, hrun, hstatus]
    exact RunStatus.noConfusion

end ByteMachine
