/-
What a setup prepares.

A setup goes through its stages one after the other: the configuration, the machine, its program, the cells and the
registers. It succeeds exactly when each of them does. Seeding then reaches memory and registers only, so a machine
that has just been loaded stands at the beginning of its program, and fits its configuration.

Contents:
- `bind_eq_ok_iff`, `mapError_eq_ok_iff`: stages that may fail;
- `Setup.configIn_write`: a text that is put elsewhere leaves the configuration;
- `Setup.seed_induction`: what memory cells and registers do not change, seeding does not change;
- `Machine.AtBeginning`: before the first statement of a program.

Main statements:
- `Setup.prepare_eq_ok_iff`: a setup succeeds exactly when all its stages do;
- `Setup.prepared_program`: what is prepared from a program text stands at its beginning;
- `Setup.prepared_fitting`: what is prepared is not running, wherever its program comes from.
-/
import Mathlib.Tactic
import ByteMachine.Command.Setup
import ByteMachine.Proofs.Machine.Fitting

namespace ByteMachine

/-! ## Stages that may fail -/

theorem bind_eq_ok_iff {ε α β : Type} (x : Except ε α) (f : α → Except ε β) (b : β) :
    (x >>= f) = .ok b ↔ ∃ a, x = .ok a ∧ f a = .ok b := by
  cases x <;> simp [bind, Except.bind]

theorem mapError_eq_ok_iff {ε δ α : Type} (x : Except ε α) (f : ε → δ) (a : α) :
    x.mapError f = .ok a ↔ x = .ok a := by
  cases x <;> simp [Except.mapError]

namespace Machine

/-- before the first statement of a program, with nothing executed yet -/
structure AtBeginning (m : Machine) : Prop where
  status : m.state.status = .idle
  pointer : m.state.currentStep = 0
  trace : m.state.trace = []
  program : 0 < m.program.length

end Machine

namespace Setup

variable {s : Setup} {d : Directory}

/-! ## Configurations -/

/-- of all files, only that of the configuration counts for the configuration -/
theorem configIn_congr {d' : Directory} (h : ∀ path ∈ s.config, d'.read path = d.read path) :
    s.configIn d' = s.configIn d := by
  unfold configIn
  cases hc : s.config with
  | none => rfl
  | some path =>
    simp only [Option.elim, Config.ofFile, h path (by simp [hc])]

/-- a configuration that was found was read from its file -/
theorem exists_read_of_configIn {c : Config} (h : s.configIn d = .ok c) {path : String} (hp : path ∈ s.config) :
    ∃ text, d.read path = .ok text := by
  unfold configIn at h
  obtain ⟨c', hc, -⟩ := (bind_eq_ok_iff ..).1 h
  rw [Option.mem_def.1 hp] at hc
  cases hr : d.read path with
  | error e => simp [Config.ofFile, hr] at hc
  | ok text => exact ⟨text, rfl⟩

/-- a text that is put elsewhere leaves the configuration -/
theorem configIn_write {d' : Directory} {c : Config} (h : s.configIn d = .ok c) {path content : String}
    (hw : d.write path content = .ok d')
    (hne : ∀ file ∈ s.config, d.find (.ofText file) ≠ d.target (.ofText path)) : s.configIn d' = .ok c := by
  rw [← h]
  refine configIn_congr fun file hf => ?_
  obtain ⟨text, ht⟩ := exists_read_of_configIn h hf
  rw [ht, Directory.read_write_of_ne hw (hne file hf) ht]

/-! ## Seeds -/

variable {P : Machine → Prop} {m m' : Machine}

theorem seedCells_induction (hw : ∀ {m : Machine} (address : ℕ) (b : UInt8), P m → P (m.writeMemory address b))
    {cells : List (ℕ × UInt8)} (h : seedCells cells m = .ok m') (hm : P m) : P m' := by
  induction cells generalizing m with
  | nil =>
    cases h
    exact hm
  | cons cell cells ih =>
    unfold seedCells at h
    cases hc : m.storeMemory cell.1 cell.2 with
    | error e => rw [hc] at h; cases h
    | ok next =>
      rw [hc] at h
      obtain ⟨-, rfl⟩ := (Machine.storeMemory_eq_ok_iff ..).1 hc
      exact ih h (hw _ _ hm)

theorem seedRegisters_induction (hr : ∀ {m : Machine} (n : ℕ) (b : UInt8), P m → P (m.setRegister n b))
    {registers : List (ℕ × UInt8)} (h : seedRegisters registers m = .ok m') (hm : P m) : P m' := by
  induction registers generalizing m with
  | nil =>
    cases h
    exact hm
  | cons register registers ih =>
    unfold seedRegisters at h
    split_ifs at h
    exact ih h (hr _ _ hm)

/-- seeding keeps what writing cells and registers keeps -/
theorem seed_induction (hw : ∀ {m : Machine} (address : ℕ) (b : UInt8), P m → P (m.writeMemory address b))
    (hr : ∀ {m : Machine} (n : ℕ) (b : UInt8), P m → P (m.setRegister n b)) (h : s.seed m = .ok m') (hm : P m) :
    P m' := by
  unfold seed at h
  obtain ⟨between, hc, h⟩ := (bind_eq_ok_iff ..).1 h
  exact seedRegisters_induction hr h (seedCells_induction hw hc hm)

/-! ## Programs -/

/-- the machine is loaded with the program of a text -/
theorem loaded_program {path : String} (hs : s.source = .program path) {q : Prepared} (h : s.loaded d m = .ok q) :
    ∃ p, m.load p = .ok q.machine := by
  unfold loaded at h
  simp only [hs] at h
  obtain ⟨source, -, h⟩ := (bind_eq_ok_iff ..).1 h
  unfold assembleIn at h
  obtain ⟨program, -, h⟩ := (bind_eq_ok_iff ..).1 h
  obtain ⟨machine, hm, h⟩ := (bind_eq_ok_iff ..).1 h
  cases h
  exact ⟨program, (mapError_eq_ok_iff ..).1 hm⟩

/-- the machine is restored from the snapshot in a file -/
theorem loaded_snapshot {path : String} (hs : s.source = .snapshot path) :
    (∃ q, s.loaded d m = .ok q ∧ q.machine = m') ↔
      ∃ snapshot, Snapshot.ofFile (d.read path) = .ok snapshot ∧ m.restore snapshot = .ok m' := by
  unfold loaded
  simp only [hs, bind_eq_ok_iff, mapError_eq_ok_iff]
  constructor
  · rintro ⟨q, ⟨snapshot, hf, machine, hr, hq⟩, rfl⟩
    cases hq
    exact ⟨snapshot, hf, hr⟩
  · rintro ⟨snapshot, hf, hr⟩
    exact ⟨_, ⟨snapshot, hf, m', hr, rfl⟩, rfl⟩

/-- the program comes from a load, from a preset, or with a snapshot -/
theorem loaded_cases {q : Prepared} (h : s.loaded d m = .ok q) :
    (∃ p, m.load p = .ok q.machine) ∨ (∃ name, m.loadPreset name = .ok q.machine) ∨
      ∃ snapshot, m.restore snapshot = .ok q.machine := by
  cases hs : s.source with
  | program path => exact .inl (loaded_program hs h)
  | preset name =>
    unfold loaded at h
    simp only [hs] at h
    obtain ⟨machine, hm, h⟩ := (bind_eq_ok_iff ..).1 h
    cases h
    exact .inr (.inl ⟨name, (mapError_eq_ok_iff ..).1 hm⟩)
  | snapshot path =>
    obtain ⟨snapshot, -, hr⟩ := (loaded_snapshot hs).1 ⟨q, h, rfl⟩
    exact .inr (.inr ⟨snapshot, hr⟩)

/-! ## Preparing -/

/-- **A setup succeeds exactly when all its stages do.** -/
theorem prepare_eq_ok_iff (s : Setup) (d : Directory) (p : Prepared) :
    s.prepare d = .ok p ↔ ∃ c q, s.configIn d = .ok c ∧ c.Valid ∧ s.loaded d (.fresh c) = .ok q ∧
      s.seed q.machine = .ok p.machine ∧ p = { q with machine := p.machine } := by
  have hfound : ∀ q, (do
      let config ← s.configIn d
      let machine ← (Machine.withConfig config).mapError .machine
      s.loaded d machine) = Except.ok q ↔ ∃ c, s.configIn d = .ok c ∧ c.Valid ∧ s.loaded d (.fresh c) = .ok q := by
    intro q
    simp only [bind_eq_ok_iff, mapError_eq_ok_iff, Machine.withConfig_eq_ok_iff, and_assoc, exists_and_left,
      exists_eq_left]
  unfold prepare
  dsimp only
  split
  · next failure he =>
    constructor
    · intro h
      cases h
    · rintro ⟨c, q, hc, hv, hl, -⟩
      rw [(hfound q).2 ⟨c, hc, hv, hl⟩] at he
      cases he
  · next q hq =>
    constructor
    · intro h
      obtain ⟨c, hc, hv, hl⟩ := (hfound q).1 hq
      cases hs : s.seed q.machine with
      | error failure => rw [hs] at h; cases h
      | ok machine =>
        rw [hs] at h
        cases h
        exact ⟨c, q, hc, hv, hl, hs, rfl⟩
    · rintro ⟨c, q', hc, hv, hl, hs, hp⟩
      rw [(hfound q').2 ⟨c, hc, hv, hl⟩] at hq
      cases hq
      rw [hs, hp]

/-- **What is prepared from a program text** stands at its beginning and fits the configuration. -/
theorem prepared_program {path : String} (hs : s.source = .program path) {p : Prepared} (h : s.prepare d = .ok p) :
    ∃ c, s.configIn d = .ok c ∧ c.Valid ∧ p.machine.AtBeginning ∧ Machine.Fitting c p.machine := by
  obtain ⟨c, q, hc, hv, hl, hseed, -⟩ := (prepare_eq_ok_iff ..).1 h
  obtain ⟨program, hp⟩ := loaded_program hs hl
  have hfit := (Machine.fitting_kept c).load trivial (show (Op.load []).isLoad = true from rfl) hp
    (Machine.fitting_fresh c)
  obtain ⟨hpos, hm⟩ := (Machine.load_eq_ok_iff ..).1 hp
  have hbegin : q.machine.AtBeginning := by
    rw [hm]
    exact ⟨rfl, rfl, rfl, hpos⟩
  refine ⟨c, hc, hv, ?_, ?_⟩
  · exact seed_induction (fun _ _ h => ⟨h.status, h.pointer, h.trace, h.program⟩)
      (fun _ _ h => ⟨h.status, h.pointer, h.trace, h.program⟩) hseed hbegin
  · exact seed_induction (fun a b h => (Machine.fitting_kept c).writeMemory a b h)
      (fun n b h => (Machine.fitting_kept c).setRegister n b h) hseed hfit

/-- **A setup hands over a machine that is not running** and fits its configuration. -/
theorem prepared_fitting {p : Prepared} (h : s.prepare d = .ok p) :
    ∃ c, c.Valid ∧ Machine.Fitting c p.machine ∧ p.machine.state.status ≠ .running := by
  obtain ⟨c, q, -, hv, hl, hseed, -⟩ := (prepare_eq_ok_iff ..).1 h
  have hf := Machine.fitting_fresh c
  have hq : Machine.Fitting c q.machine ∧ q.machine.state.status ≠ .running := by
    rcases loaded_cases hl with ⟨program, hp⟩ | ⟨name, hp⟩ | ⟨snapshot, hp⟩
    · refine ⟨(Machine.fitting_kept c).load trivial (show (Op.load []).isLoad = true from rfl) hp hf, ?_⟩
      obtain ⟨-, hm⟩ := (Machine.load_eq_ok_iff ..).1 hp
      rw [hm]
      exact RunStatus.noConfusion
    · refine ⟨(Machine.fitting_kept c).loadPreset trivial hp hf, ?_⟩
      obtain ⟨preset, -, hm⟩ := (Machine.loadPreset_eq_ok_iff ..).1 hp
      rw [hm]
      exact RunStatus.noConfusion
    · refine ⟨(Machine.fitting_kept c).restore trivial hp hf, ?_⟩
      obtain ⟨-, hm⟩ := (Machine.restore_eq_ok_iff ..).1 hp
      rw [hm]
      exact snapshot.state.paused_status_ne_running
  refine ⟨c, hv, ?_⟩
  exact seed_induction (P := fun m => Machine.Fitting c m ∧ m.state.status ≠ .running)
    (fun a b h => ⟨(Machine.fitting_kept c).writeMemory a b h.1, h.2⟩)
    (fun n b h => ⟨(Machine.fitting_kept c).setRegister n b h.1, h.2⟩) hseed hq

end Setup

end ByteMachine
