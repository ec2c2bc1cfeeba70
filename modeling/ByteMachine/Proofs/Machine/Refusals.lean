/-
Operations that fail: exactly when, why, and that they leave the machine as it was.

Six kinds of operations can be refused: the three loads, a checked write to memory, and the two imports. `Fault` lists
the causes, each with the error that names it, and nothing else is ever refused. Two more kinds, writing a register and
writing a cell, answer whether there was a place to write to.

Contents:
- `Fault`: why an operation is refused;
- `Failed`: an operation was refused, or a write found no place;
- `…_eq_error_iff`: when each of the fallible changes fails.

Main statements:
- `perform_refused_iff`: an operation is refused exactly for a fault;
- `perform_restore_of_fits`: an import that is not refused brings what the snapshot holds;
- `failed_changes_nothing`: an operation that fails leaves the machine as it was.
-/
import Mathlib.Tactic
import ByteMachine.Proofs.Machine.Fitting

namespace ByteMachine

/-! ## When a change fails -/

/-- nothing is written where there is no register -/
theorem Registers.write_of_count_le {r : Registers} {n : ℕ} (h : r.count ≤ n) (b : UInt8) : r.write n b = r := by
  unfold Registers.write
  rw [List.set_eq_of_length_le h]

/-- a text that is no snapshot is malformed, whatever is wrong with it -/
theorem Snapshot.ofText_eq_error_iff (text : String) (e : SnapshotError) :
    ofText text = .error e ↔ (∀ s, ofText text ≠ .ok s) ∧ e = .malformed := by
  unfold ofText
  cases (Json.read text).bind ofJson? with
  | none => simp [eq_comm]
  | some s => simp

namespace Machine

theorem load_eq_error_iff (m : Machine) (p : Program) (e : LoadError) :
    m.load p = .error e ↔ p.length = 0 ∧ e = .emptyProgram := by
  have he : p.isEmpty = true ↔ p.length = 0 := by simp [Program.isEmpty, Program.length]
  rw [← he]
  unfold load
  cases p.isEmpty with
  | true => simp [eq_comm]
  | false => simp

theorem loadTexts_eq_error_iff (m : Machine) (texts : List String) (e : LoadError) :
    m.loadTexts texts = .error e ↔ texts = [] ∧ e = .emptyProgram := by
  rw [loadTexts, load_eq_error_iff, Program.length_ofTexts, List.length_eq_zero_iff]

/-- a text fails to load exactly if it has no statement; assembling it finds that out before loading would -/
theorem loadSource_eq_error_iff (m : Machine) (source : String) (e : LoadError) :
    m.loadSource source = .error e ↔ statementsOf source = [] ∧ e = .assembly .empty := by
  unfold loadSource Program.assemble Program.ofStatements?
  cases statementsOf source with
  | nil => simp [eq_comm]
  | cons s rest => simp [load_eq_error_iff]

theorem loadPreset_eq_error_iff (m : Machine) (name : String) (e : LoadError) :
    m.loadPreset name = .error e ↔ Preset.find? name = none ∧ e = .unknownPreset name := by
  cases hf : Preset.find? name with
  | none => simp [loadPreset, hf, eq_comm]
  | some p =>
    have hl := (m.loadPreset_eq_ok_iff _ name).2 ⟨p, hf, rfl⟩
    simp [hl]

theorem storeMemory_eq_error_iff (m : Machine) (address : ℕ) (b : UInt8) (e : AddressOutOfRange) :
    m.storeMemory address b = .error e ↔ m.state.memory.size ≤ address ∧ e = ⟨address, m.state.memory.size⟩ := by
  unfold storeMemory Memory.store Memory.holds
  by_cases h : address < m.state.memory.size
  · simp [h, Except.map, Nat.not_le.2 h]
  · simp [h, Except.map, Nat.not_lt.1 h, eq_comm]

/-! ## Faults -/

/-- why an operation is refused -/
inductive Fault (m : Machine) : Op → OpError → Prop
  | noTexts : Fault m (.load []) (.load .emptyProgram)
  | noStatements {source : String} (h : statementsOf source = []) :
      Fault m (.loadSource source) (.load (.assembly .empty))
  | noPreset {name : String} (h : Preset.find? name = none) : Fault m (.loadPreset name) (.load (.unknownPreset name))
  | noCell {address : ℕ} {b : UInt8} (h : m.state.memory.size ≤ address) :
      Fault m (.storeMemory address b) (.address ⟨address, m.state.memory.size⟩)
  | misfit {s : Snapshot} {e : SnapshotError} (h : s.FirstFault m.config e) : Fault m (.restore s) (.snapshot e)
  | noSnapshot {text : String} (h : ∀ s, Snapshot.ofText text ≠ .ok s) :
      Fault m (.restoreText text) (.snapshot .malformed)
  | misfitText {text : String} {s : Snapshot} {e : SnapshotError} (hs : Snapshot.ofText text = .ok s)
      (h : s.FirstFault m.config e) : Fault m (.restoreText text) (.snapshot e)

theorem orRefuse_fst_eq_refused_iff {ε : Type} (m : Machine) (toError : ε → OpError) (r : Except ε Machine)
    (e : OpError) : (m.orRefuse toError r).1 = .refused e ↔ ∃ x, r = .error x ∧ e = toError x := by
  cases r with
  | error x => simp [orRefuse, eq_comm]
  | ok m' => simp [orRefuse]

/-- **An operation is refused exactly for a fault**, and the error names it. -/
theorem perform_refused_iff (m : Machine) (op : Op) (e : OpError) : (m.perform op).1 = .refused e ↔ Fault m op e := by
  constructor
  · intro h
    cases op with
    | load texts =>
      obtain ⟨x, hx, rfl⟩ := (orRefuse_fst_eq_refused_iff ..).1 h
      obtain ⟨rfl, rfl⟩ := (loadTexts_eq_error_iff ..).1 hx
      exact .noTexts
    | loadSource source =>
      obtain ⟨x, hx, rfl⟩ := (orRefuse_fst_eq_refused_iff ..).1 h
      obtain ⟨hs, rfl⟩ := (loadSource_eq_error_iff ..).1 hx
      exact .noStatements hs
    | loadPreset name =>
      obtain ⟨x, hx, rfl⟩ := (orRefuse_fst_eq_refused_iff ..).1 h
      obtain ⟨hf, rfl⟩ := (loadPreset_eq_error_iff ..).1 hx
      exact .noPreset hf
    | storeMemory address b =>
      obtain ⟨x, hx, rfl⟩ := (orRefuse_fst_eq_refused_iff ..).1 h
      obtain ⟨ha, rfl⟩ := (storeMemory_eq_error_iff ..).1 hx
      exact .noCell ha
    | restore s =>
      obtain ⟨x, hx, rfl⟩ := (orRefuse_fst_eq_refused_iff ..).1 h
      exact .misfit ((restore_eq_error_iff ..).1 hx)
    | restoreText text =>
      obtain ⟨x, hx, rfl⟩ := (orRefuse_fst_eq_refused_iff ..).1 h
      unfold Machine.restoreText at hx
      split at hx
      · next y hy =>
        cases hx
        rw [Snapshot.ofText_eq_error_iff] at hy
        obtain ⟨hn, rfl⟩ := hy
        exact .noSnapshot hn
      · next s hs => exact .misfitText hs ((restore_eq_error_iff ..).1 hx)
    | _ => cases h
  · intro h
    cases h with
    | noTexts => rfl
    | noStatements h =>
      exact (orRefuse_fst_eq_refused_iff ..).2 ⟨_, (loadSource_eq_error_iff ..).2 ⟨h, rfl⟩, rfl⟩
    | noPreset h => exact (orRefuse_fst_eq_refused_iff ..).2 ⟨_, (loadPreset_eq_error_iff ..).2 ⟨h, rfl⟩, rfl⟩
    | noCell h => exact (orRefuse_fst_eq_refused_iff ..).2 ⟨_, (storeMemory_eq_error_iff ..).2 ⟨h, rfl⟩, rfl⟩
    | misfit h => exact (orRefuse_fst_eq_refused_iff ..).2 ⟨_, (restore_eq_error_iff ..).2 h, rfl⟩
    | @noSnapshot text h =>
      have ht : Snapshot.ofText text = .error .malformed := (Snapshot.ofText_eq_error_iff ..).2 ⟨h, rfl⟩
      exact (orRefuse_fst_eq_refused_iff ..).2 ⟨_, by simp [Machine.restoreText, ht], rfl⟩
    | misfitText hs h =>
      have hr := (restore_eq_error_iff m _ _).2 h
      exact (orRefuse_fst_eq_refused_iff ..).2 ⟨_, by simp [Machine.restoreText, hs, hr], rfl⟩

/-! ## What is left of an operation -/

/-- it was refused, or a write found no place -/
def Failed : Op → Reply → Prop
  | .setRegister _ _, reply | .writeMemory _ _, reply => reply = .answer false
  | _, reply => ∃ e, reply = .refused e

theorem perform_setRegister_eq_false_iff (m : Machine) (n : ℕ) (b : UInt8) :
    (m.perform (.setRegister n b)).1 = .answer false ↔ m.state.registers.count ≤ n := by
  simp [perform, Registers.holds]

theorem perform_writeMemory_eq_false_iff (m : Machine) (address : ℕ) (b : UInt8) :
    (m.perform (.writeMemory address b)).1 = .answer false ↔ m.state.memory.size ≤ address := by
  simp [perform, Memory.holds]

theorem perform_of_failed {m : Machine} {op : Op} (h : Failed op (m.perform op).1) : (m.perform op).2 = m := by
  cases op with
  | setRegister n b =>
    have hn := (m.perform_setRegister_eq_false_iff n b).1 h
    show m.setRegister n b = m
    rw [setRegister, Registers.write_of_count_le hn]
  | writeMemory address b =>
    have ha := (m.perform_writeMemory_eq_false_iff address b).1 h
    show m.writeMemory address b = m
    rw [writeMemory, Memory.write_of_size_le ha]
  | _ =>
    obtain ⟨e, he⟩ := h
    exact m.perform_refused _ e he

/-- an import that fits brings what the snapshot holds, stopped -/
theorem perform_restore_of_fits {m : Machine} {s : Snapshot} (h : s.Fits m.config) :
    m.perform (.restore s) = (.accepted, m.restored s) := by
  have hr := (restore_eq_ok_iff m (m.restored s) s).2 ⟨h, rfl⟩
  simp [perform, hr, orRefuse]

theorem perform_restore_eq_accepted_iff (m : Machine) (s : Snapshot) :
    (m.perform (.restore s)).1 = .accepted ↔ s.Fits m.config := by
  constructor
  · intro h
    cases hr : m.restore s with
    | error e => simp [perform, hr, orRefuse] at h
    | ok m' => exact ((restore_eq_ok_iff ..).1 hr).1
  · intro h
    rw [perform_restore_of_fits h]

/-- **What fails changes nothing.** Whatever is done to whatever machine: if it is refused, or is a write that finds no
place, the machine is the one from before. It is refused exactly for a fault, with the error that names it: no text or
no statement to load, an unknown preset, no cell at the address, a text that is no snapshot, or a snapshot that does not
fit, and then it is the first of the four conditions that counts. A snapshot is imported exactly if it fits; the
configuration stays, and program, preset name and state are the snapshot's, except that a running one is paused. -/
theorem failed_changes_nothing (m : Machine) :
    (∀ op, Failed op (m.perform op).1 → (m.perform op).2 = m) ∧
    (∀ op e, (m.perform op).1 = .refused e ↔ Fault m op e) ∧
    (∀ n b, (m.perform (.setRegister n b)).1 = .answer false ↔ m.state.registers.count ≤ n) ∧
    (∀ address b, (m.perform (.writeMemory address b)).1 = .answer false ↔ m.state.memory.size ≤ address) ∧
    (∀ s, (m.perform (.restore s)).1 = .accepted ↔ s.Fits m.config) ∧
    (∀ s, s.Fits m.config →
      let m' := (m.perform (.restore s)).2
      m'.config = m.config ∧ m'.program = s.program ∧ m'.preset = s.preset ∧
        m'.state = if s.state.status = .running then { s.state with status := .paused } else s.state) ∧
    ∀ text s, Snapshot.ofText text = .ok s → m.perform (.restoreText text) = m.perform (.restore s) := by
  refine ⟨fun op => perform_of_failed, m.perform_refused_iff, m.perform_setRegister_eq_false_iff,
    m.perform_writeMemory_eq_false_iff, m.perform_restore_eq_accepted_iff, fun s h => ?_, fun text s hs => ?_⟩
  · rw [perform_restore_of_fits h]
    exact ⟨rfl, rfl, rfl, rfl⟩
  · simp only [perform, restoreText, hs]

/-- a machine in the middle of a program -/
def occupied : Machine :=
  (fresh small).performAll [.load ["A ← R[0]", "PC ← PC + 1"], .setRegister 0 7, .step]

/-- a snapshot whose trace goes on behind the end of its program -/
def overlong : Snapshot :=
  ⟨.ofTexts ["IR ← MDR"], { State.initial small with trace := [⟨0, "IR ← MDR", "IR = 0"⟩, ⟨1, "?", ""⟩] }, none⟩

/-- one operation of each kind that fails -/
def hopeless : List Op :=
  [.load [], .loadSource " ; nothing\n", .loadPreset "none", .storeMemory 4 1, .writeMemory 4 1, .setRegister 2 1,
    .restore overlong, .restoreText "{}"]

theorem failed_changes_nothing_occupied :
    (∀ op ∈ hopeless, Failed op (occupied.perform op).1 ∧ (occupied.perform op).2 = occupied) ∧
    (occupied.perform (.restore overlong)).1 = .refused (.snapshot (.stepOutOfRange 1 1)) ∧
    occupied.snapshot.Fits occupied.config ∧ (occupied.perform (.restore occupied.snapshot)).2.preset = none := by
  obtain ⟨hkeeps, hfault, -, -, -, hbrings, -⟩ := failed_changes_nothing occupied
  have hfailed : ∀ op ∈ hopeless, Failed op (occupied.perform op).1 := by
    intro op h
    simp only [hopeless, List.mem_cons, List.not_mem_nil, or_false] at h
    rcases h with rfl | rfl | rfl | rfl | rfl | rfl | rfl | rfl
    · exact ⟨_, rfl⟩
    · exact ⟨_, rfl⟩
    · exact ⟨_, rfl⟩
    · exact ⟨_, rfl⟩
    · rfl
    · rfl
    · exact ⟨_, rfl⟩
    · exact ⟨_, rfl⟩
  have hfits : occupied.snapshot.Fits occupied.config := (Snapshot.check_eq_ok_iff ..).1 rfl
  have hfirst : overlong.FirstFault occupied.config (.stepOutOfRange 1 1) := (Snapshot.check_eq_error_iff ..).1 rfl
  exact ⟨fun op h => ⟨hfailed op h, hkeeps op (hfailed op h)⟩, (hfault _ _).2 (.misfit hfirst), hfits,
    (hbrings _ hfits).2.2.1⟩

end Machine

end ByteMachine
