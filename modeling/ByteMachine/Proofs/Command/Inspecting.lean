/-
Which snapshots can be inspected, and what is shown of them.

Without a configuration, inspecting a snapshot makes a machine of just its sizes. A check of a snapshot compares sizes
and reads nothing else of a configuration, so this machine accepts the snapshot if any machine does. It does not,
exactly if the sizes are not those of a machine, or the pointer or an entry of the trace lies outside the program.

Contents:
- `Memory.occupied`: where the cells are that hold something;
- `Snapshot.Restorable`: the sizes of a machine, pointer and trace inside the program;
- `Snapshot.shownStatus`: the name that is shown of a status, where a machine that was running is paused;
- `Snapshot.Inspection`: the lines that are shown of a snapshot.

Main statements:
- `Memory.nonZero_eq`: the cells that hold something, in the order of their addresses;
- `Snapshot.exists_restore_iff`: some machine restores a snapshot exactly if it is restorable;
- `inspected_eq_ok_iff`: then, and only then, it can be inspected;
- `inspect_accepts_restorable`: what inspecting accepts, and what it shows.
-/
import Mathlib.Tactic
import ByteMachine.Command
import ByteMachine.Proofs.Command.Preparing
import ByteMachine.Proofs.Program.Reassembling
import ByteMachine.Proofs.Snapshot.Document

namespace ByteMachine

/-! ## Cells that hold something -/

namespace Memory

/-- the addresses of the cells that hold something -/
def occupied (m : Memory) : List ℕ :=
  (List.range m.size).filter fun a => m.read a ≠ 0

theorem mem_occupied_iff (m : Memory) (a : ℕ) : a ∈ m.occupied ↔ a < m.size ∧ m.read a ≠ 0 := by
  simp [occupied]

theorem pairwise_occupied (m : Memory) : m.occupied.Pairwise (· < ·) :=
  List.pairwise_lt_range.filter _

/-- a window of the whole memory has every cell once, in the order of the addresses -/
theorem dump_all (m : Memory) : m.dump 0 m.size = (List.range m.size).map fun a => (a, m.read a) := by
  rw [dump_eq, Nat.sub_zero, Nat.min_self, List.range_eq_range']

/-- **The cells that hold something**, in the order of their addresses. -/
theorem nonZero_eq (m : Memory) : m.nonZero = m.occupied.map fun a => (a, m.read a) := by
  rw [nonZero, dump_all, List.filter_map, occupied]
  congr 1
  refine List.filter_congr fun a _ => ?_
  by_cases h : m.read a = 0 <;> simp [h]

end Memory

/-! ## Snapshots that some machine restores -/

namespace Snapshot

/-- the sizes are those of a machine, and pointer and trace stay inside the program -/
structure Restorable (s : Snapshot) : Prop where
  memory : 1 ≤ s.state.memory.size ∧ s.state.memory.size ≤ 256
  registers : 1 ≤ s.state.registers.count ∧ s.state.registers.count ≤ 256
  pointer : s.state.currentStep ≤ s.program.length
  trace : ∀ e ∈ s.state.trace, e.step < s.program.length

/-- a machine of just the sizes of a snapshot restores it, if it is restorable at all -/
theorem restorable_iff (s : Snapshot) : s.Restorable ↔ s.ownConfig.Valid ∧ s.Fits s.ownConfig := by
  constructor
  · intro h
    exact ⟨⟨h.memory, h.registers, show 1 ≤ 1000 by decide⟩, ⟨rfl, rfl, h.pointer, h.trace⟩⟩
  · rintro ⟨hv, hf⟩
    exact ⟨hv.memory, hv.registers, hf.pointer, hf.trace⟩

/-- **Some machine restores a snapshot exactly if it is restorable.** -/
theorem exists_restore_iff (s : Snapshot) :
    (∃ c m m', Machine.withConfig c = .ok m ∧ m.restore s = .ok m') ↔ s.Restorable := by
  simp only [Machine.withConfig_eq_ok_iff, Machine.restore_eq_ok_iff]
  constructor
  · rintro ⟨c, m, m', ⟨hv, rfl⟩, hf, -⟩
    have hfits : s.Fits c := hf
    exact ⟨hfits.memory ▸ hv.memory, hfits.registers ▸ hv.registers, hfits.pointer, hfits.trace⟩
  · intro h
    obtain ⟨hv, hf⟩ := s.restorable_iff.1 h
    exact ⟨s.ownConfig, .fresh s.ownConfig, _, ⟨hv, rfl⟩, hf, rfl⟩

/-! ## Inspecting -/

/-- the name that is shown of a saved status; what was saved while it ran is paused -/
def shownStatus : RunStatus → String
  | .idle => "Idle"
  | .running | .paused => "Paused"
  | .completed => "Completed"

/-- what is shown of a snapshot: one line for each statement, with the next one marked, and one for each address -/
structure Inspection (s : Snapshot) (path : String) (out : List String) (listing : List String)
    (addresses : List ℕ) : Prop where
  lines : out =
    ["📖 " ++ path] ++ (s.preset.map ("Preset: " ++ ·)).toList ++
      ["Status: " ++ shownStatus s.state.status ++ ", next step " ++ Text.numeral s.state.currentStep, ""] ++
      listing ++
      ["", s.state.registers.inspect, "FLAGS: " ++ s.state.flags.text,
        "Trace: " ++ Text.numeral s.state.trace.length ++ " entries"] ++
      addresses.map fun a => "Mem[" ++ Text.numeral a ++ "] = " ++ Text.numeral (s.state.memory.read a).toNat
  /-- every statement has its line, and no line else is marked than that of the next statement -/
  listed : listing.length = s.program.length ∧
    ∀ i line, listing[i]? = some line → (line.toList.head? = some '▶' ↔ i = s.state.currentStep)
  /-- there is a marked line exactly if the next statement is inside the program -/
  marked : (∃ line ∈ listing, line.toList.head? = some '▶') ↔ s.state.currentStep < s.program.length
  /-- each cell that holds something is listed, and no other one -/
  cells : ∀ a, a ∈ addresses ↔ a < s.state.memory.size ∧ s.state.memory.read a ≠ 0
  /-- the addresses increase, so none is listed twice -/
  increasing : addresses.Pairwise (· < ·)

end Snapshot

/-- a row of a listing begins with the marker exactly if its statement is the next one -/
theorem Program.head?_row_eq_marker_iff {p : Program} {currentStep i : ℕ} {row : String}
    (h : (p.rows currentStep)[i]? = some row) : row.toList.head? = some '▶' ↔ i = currentStep := by
  rw [Program.getElem?_rows, Option.map_eq_some_iff] at h
  obtain ⟨statement, -, rfl⟩ := h
  by_cases hi : i = currentStep
  · simp [hi]
  · simp [hi]

/-- a machine that was restored shows its status under the name for the saved one -/
theorem State.title_paused_status (s : State) : s.paused.status.title = Snapshot.shownStatus s.status := by
  rw [State.paused_status]
  cases s.status <;> rfl

/-- the report on a machine that was restored from a snapshot -/
theorem Snapshot.inspection (s : Snapshot) (m : Machine) (path : String) :
    s.Inspection path ((m.restored s).inspectionLines path) (s.program.rows s.state.currentStep)
      s.state.memory.occupied where
  lines := by
    simp [Machine.inspectionLines, Machine.restored, Machine.listing, Program.rows, State.title_paused_status,
      Memory.nonZero_eq, cellLine, State.show8, Function.comp_def]
  listed := ⟨s.program.length_rows _, fun i row => Program.head?_row_eq_marker_iff⟩
  marked := by
    constructor
    · rintro ⟨row, hrow, hmarker⟩
      obtain ⟨i, hi⟩ := List.mem_iff_getElem?.1 hrow
      have hlong := (List.getElem?_eq_some_iff.1 hi).1
      rwa [Program.length_rows, (Program.head?_row_eq_marker_iff hi).1 hmarker] at hlong
    · intro h
      have hlong : s.state.currentStep < (s.program.rows s.state.currentStep).length := by
        rwa [Program.length_rows]
      have hrow := List.getElem?_eq_getElem hlong
      exact ⟨_, List.mem_of_getElem? hrow, (Program.head?_row_eq_marker_iff hrow).2 rfl⟩
  cells := s.state.memory.mem_occupied_iff
  increasing := s.state.memory.pairwise_occupied

variable {d : Directory} {path : String} {s : Snapshot}

/-- **A snapshot can be inspected exactly if it is restorable**, and a machine of just its sizes shows it. -/
theorem inspected_eq_ok_iff (h : Snapshot.ofFile (d.read path) = .ok s) (m : Machine) :
    inspected d path none = .ok m ↔ s.Restorable ∧ m = (Machine.fresh s.ownConfig).restored s := by
  simp only [inspected, h, bind_eq_ok_iff, mapError_eq_ok_iff, Machine.withConfig_eq_ok_iff, Machine.restore_eq_ok_iff,
    Option.elim_none, Except.ok.injEq, s.restorable_iff]
  constructor
  · rintro ⟨_, rfl, _, rfl, _, ⟨hv, rfl⟩, hf, hm⟩
    exact ⟨⟨hv, hf⟩, hm⟩
  · rintro ⟨⟨hv, hf⟩, hm⟩
    exact ⟨s, rfl, s.ownConfig, rfl, _, ⟨hv, rfl⟩, hf, hm⟩

/-- **Inspecting accepts what some machine accepts.** Let the file at a path be the document of a snapshot. Inspecting
it without a configuration succeeds exactly if there is a machine with a valid configuration that restores it, and that
is exactly if it is restorable. Then what is printed is an inspection of it. -/
theorem inspect_accepts_restorable (h : Snapshot.ofFile (d.read path) = .ok s) (keys : List Key) :
    let o := (Command.inspect path none).perform d keys
    (o.exit = 0 ↔ ∃ c m m', Machine.withConfig c = .ok m ∧ m.restore s = .ok m') ∧
    (o.exit = 0 ↔ s.Restorable) ∧
    (o.exit = 0 → ∃ listing addresses, s.Inspection path o.out listing addresses) := by
  intro o
  have ho : o = inspectOutcome d path none := rfl
  unfold inspectOutcome at ho
  rw [s.exists_restore_iff]
  cases hm : inspected d path none with
  | error failure =>
    rw [hm] at ho
    have hexit : o.exit = 1 := by rw [ho]; rfl
    have hrefused : ¬s.Restorable := fun hs => by
      rw [(inspected_eq_ok_iff h _).2 ⟨hs, rfl⟩] at hm
      cases hm
    simp [hexit, hrefused]
  | ok m =>
    rw [hm] at ho
    obtain ⟨hs, rfl⟩ := (inspected_eq_ok_iff h m).1 hm
    have hexit : o.exit = 0 := by rw [ho]; rfl
    have hout : o.out = ((Machine.fresh s.ownConfig).restored s).inspectionLines path := by rw [ho]; rfl
    rw [hout]
    exact ⟨iff_of_true hexit hs, iff_of_true hexit hs, fun _ => ⟨_, _, s.inspection _ path⟩⟩

/-- a snapshot of a running machine, at the end of its program, with one cell of three in use -/
def busy : Snapshot where
  program := .ofTexts ["PC ← PC + 1"]
  state :=
    { registers := { general := [7] }
      memory := ⟨[0, 5, 0]⟩
      currentStep := 1
      trace := [⟨0, "PC ← PC + 1", "PC = 1"⟩]
      status := .running }

theorem inspect_accepts_busy :
    let d : Directory := ⟨[(["busy.json"], .text busy.fileText)]⟩
    Snapshot.ofFile (d.read "busy.json") = .ok busy ∧ busy.Restorable ∧
      ((Command.inspect "busy.json" none).perform d []).exit = 0 ∧
      ∃ listing addresses,
        busy.Inspection "busy.json" ((Command.inspect "busy.json" none).perform d []).out listing addresses ∧
          ∀ line ∈ ["Status: Paused, next step 1", "PC=00 IR=00 MAR=00 MDR=00 R0=07", "FLAGS: Z=0 N=0 C=0 V=0",
            "Trace: 1 entries", "Mem[1] = 5"], line ∈ ((Command.inspect "busy.json" none).perform d []).out := by
  intro d
  have hread : d.read "busy.json" = .ok busy.fileText := rfl
  have hfile : Snapshot.ofFile (d.read "busy.json") = .ok busy := by
    rw [hread]
    exact busy.ofText_fileText.trans (if_pos (by decide))
  have hs : busy.Restorable := ⟨by decide, by decide, by decide, by decide⟩
  obtain ⟨-, haccept, hshown⟩ := inspect_accepts_restorable hfile []
  obtain ⟨listing, addresses, hinspection⟩ := hshown (haccept.2 hs)
  refine ⟨hfile, hs, haccept.2 hs, listing, addresses, hinspection, ?_⟩
  have hstatus : "Status: " ++ Snapshot.shownStatus busy.state.status ++ ", next step " ++
      Text.numeral busy.state.currentStep = "Status: Paused, next step 1" := by decide
  have hregisters : busy.state.registers.inspect = "PC=00 IR=00 MAR=00 MDR=00 R0=07" := by decide
  have hflags : "FLAGS: " ++ busy.state.flags.text = "FLAGS: Z=0 N=0 C=0 V=0" := by decide
  have htrace : "Trace: " ++ Text.numeral busy.state.trace.length ++ " entries" = "Trace: 1 entries" := by decide
  have hcell : "Mem[1] = 5" ∈ addresses.map fun a =>
      "Mem[" ++ Text.numeral a ++ "] = " ++ Text.numeral (busy.state.memory.read a).toNat :=
    List.mem_map.2 ⟨1, (hinspection.cells 1).2 (by decide), by decide⟩
  rw [hinspection.lines, hstatus, hregisters, hflags, htrace]
  intro line hline
  simp only [List.mem_cons, List.not_mem_nil, or_false] at hline
  rcases hline with rfl | rfl | rfl | rfl | rfl
  · simp
  · simp
  · simp
  · simp
  · exact List.mem_append_right _ hcell

end ByteMachine
