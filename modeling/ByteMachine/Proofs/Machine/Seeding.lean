/-
Seeding and loading, in either order.

A load replaces program and preset name and rewinds; which program that is, and whether there is one, does not depend on
the machine. Seeding writes registers and cells, and what it answers depends on their numbers alone. Neither reads what
the other writes, so they can change places. A machine may be seeded before its program is there, or after.

Contents:
- `Op.seeds`: operations that write registers or cells from outside.

Main statements:
- `perform_loaded`: one seed, on a machine that has been loaded;
- `performAll_loaded`: any number of them;
- `seeding_commutes_with_loading`: the same machine and the same replies in either order, and what a load keeps.
-/
import Mathlib.Tactic
import ByteMachine.Proofs.Machine.Framing
import ByteMachine.Proofs.Machine.Resetting

namespace ByteMachine

/-- does it write registers or cells from outside? -/
def Op.seeds : Op → Bool
  | .setRegister _ _ | .writeMemory _ _ | .storeMemory _ _ | .assign _ _ => true
  | _ => false

namespace Machine

/-! ## Seeding what has been loaded -/

theorem storeMemory_loaded (m : Machine) (program : Program) (preset : Option String) (address : ℕ) (b : UInt8) :
    (m.loaded program preset).storeMemory address b =
      (m.storeMemory address b).map fun d => d.loaded program preset := by
  unfold storeMemory
  show (m.state.memory.store address b).map _ = _
  cases m.state.memory.store address b with
  | error e => rfl
  | ok memory => rfl

/-- **One seed** answers a loaded machine as it does the machine before, and the load can as well come later. -/
theorem perform_loaded (m : Machine) (program : Program) (preset : Option String) {op : Op} (h : op.seeds = true) :
    (m.loaded program preset).perform op = ((m.perform op).1, (m.perform op).2.loaded program preset) := by
  cases op with
  | setRegister | writeMemory | assign => rfl
  | storeMemory address b =>
    simp only [perform, storeMemory_loaded]
    cases m.storeMemory address b with
    | error e => rfl
    | ok d => rfl
  | _ => cases h

/-- **Any number of seeds**: same replies, and the same machine if it is loaded afterwards. -/
theorem performAll_loaded (m : Machine) (program : Program) (preset : Option String) {seeds : List Op}
    (h : ∀ op ∈ seeds, op.seeds = true) :
    (m.loaded program preset).replies seeds = m.replies seeds ∧
      (m.loaded program preset).performAll seeds = (m.performAll seeds).loaded program preset := by
  induction seeds generalizing m with
  | nil => exact ⟨rfl, rfl⟩
  | cons op seeds ih =>
    have hop := m.perform_loaded program preset (h op List.mem_cons_self)
    obtain ⟨hreplies, hlast⟩ := ih (m.perform op).2 fun o ho => h o (List.mem_cons_of_mem op ho)
    unfold replies
    rw [performAll_cons, performAll_cons, hop]
    exact ⟨congrArg _ hreplies, hlast⟩

/-! ## Either order -/

/-- **Seeding commutes with loading.** Take any machine, any load and any sequence of seeds, in range or not. If the
seeds come first, the load gives the reply that it would have given before them, and leaves the machine that the seeds
make of the loaded one; and each seed gives the same reply in either order.

A load keeps the configuration, registers, memory, buses, the last result and both sets of flags. If it is accepted,
the pointer is at the first statement, the trace is empty and the machine is idle; if it is refused, the machine is as
it was. -/
theorem seeding_commutes_with_loading (m : Machine) {load : Op} (hload : load.isLoad = true) {seeds : List Op}
    (hseeds : ∀ op ∈ seeds, op.seeds = true) :
    let reply := (m.perform load).1
    let loaded := (m.perform load).2
    (m.performAll seeds).perform load = (reply, loaded.performAll seeds) ∧
    loaded.replies seeds = m.replies seeds ∧
    (loaded.config = m.config ∧ loaded.state.registers = m.state.registers ∧
      loaded.state.memory = m.state.memory ∧ loaded.state.busA = m.state.busA ∧ loaded.state.busB = m.state.busB ∧
      loaded.state.aluResult = m.state.aluResult ∧ loaded.state.aluFlags = m.state.aluFlags ∧
      loaded.state.flags = m.state.flags) ∧
    ((reply = .accepted ∧ loaded.state.currentStep = 0 ∧ loaded.state.trace = [] ∧ loaded.state.status = .idle) ∨
      ∃ e, reply = .refused (.load e) ∧ loaded = m) := by
  intro reply loaded
  cases loads_of_isLoad hload with
  | refused e h =>
    have hperform : m.perform load = (.refused (.load e), m) := h m
    have hreply : reply = .refused (.load e) := congrArg Prod.fst hperform
    have hloaded : loaded = m := congrArg Prod.snd hperform
    rw [hreply, hloaded]
    exact ⟨h _, rfl, ⟨rfl, rfl, rfl, rfl, rfl, rfl, rfl, rfl⟩, .inr ⟨e, rfl, rfl⟩⟩
  | accepted program preset h =>
    have hperform : m.perform load = (.accepted, m.loaded program preset) := h m
    have hreply : reply = .accepted := congrArg Prod.fst hperform
    have hloaded : loaded = m.loaded program preset := congrArg Prod.snd hperform
    obtain ⟨hreplies, hlast⟩ := m.performAll_loaded program preset hseeds
    rw [hreply, hloaded, hlast]
    exact ⟨h _, hreplies, ⟨rfl, rfl, rfl, rfl, rfl, rfl, rfl, rfl⟩, .inl ⟨rfl, rfl, rfl, rfl⟩⟩

/-- a machine in the middle of a program, running and with a result -/
def underway : Machine :=
  (fresh small).performAll [.load ["A ← R[0]", "ALU ← A + B", "MAR ← PC"], .setRegister 0 9, .run, .tick, .tick]

theorem seeding_commutes_with_loading_underway :
    let seeds : List Op := [.setRegister 1 5, .setRegister 9 1, .writeMemory 3 7, .writeMemory 100 1, .storeMemory 1 8,
      .storeMemory 100 1, .assign .mar 3]
    let loaded := (underway.perform (.loadPreset "load-store")).2
    (∀ op ∈ seeds, op.seeds = true) ∧ underway.state.status = .running ∧ underway.state.aluResult = 9 ∧
    (underway.performAll seeds).perform (.loadPreset "load-store") = (.accepted, loaded.performAll seeds) ∧
    loaded.replies seeds = [.answer true, .answer false, .answer true, .answer false, .accepted,
      .refused (.address ⟨100, 4⟩), .done] ∧
    loaded.state.aluResult = 9 ∧ loaded.state.status = .idle ∧
    (underway.performAll seeds).perform (.loadSource "; nothing") =
      (.refused (.load (.assembly .empty)), underway.performAll seeds) := by
  intro seeds loaded
  have hseeds : ∀ op ∈ seeds, op.seeds = true := by decide
  have hv : underway.state.status = .running ∧ underway.state.aluResult = 9 ∧
      (underway.perform (.loadPreset "load-store")).1 = .accepted ∧
      (underway.perform (.loadSource "; nothing")).1 = .refused (.load (.assembly .empty)) ∧
      underway.replies seeds = [.answer true, .answer false, .answer true, .answer false, .accepted,
        .refused (.address ⟨100, 4⟩), .done] := by decide +kernel
  obtain ⟨hrunning, hresult, haccepted, hrefused, hreplies⟩ := hv
  obtain ⟨horder, hsame, ⟨-, -, -, -, -, hkept, -⟩, hloads⟩ :=
    seeding_commutes_with_loading underway (show (Op.loadPreset "load-store").isLoad = true from rfl) hseeds
  obtain ⟨hother, -, -, hfails⟩ :=
    seeding_commutes_with_loading underway (show (Op.loadSource "; nothing").isLoad = true from rfl) hseeds
  rw [haccepted] at horder hloads
  rw [hrefused] at hother hfails
  obtain ⟨-, -, -, hidle⟩ | ⟨e, hno, -⟩ := hloads
  · obtain ⟨hno, -⟩ | ⟨e, -, hunchanged⟩ := hfails
    · cases hno
    · rw [hunchanged] at hother
      exact ⟨hseeds, hrunning, hresult, horder, hsame.trans hreplies, hkept.trans hresult, hidle, hother⟩
  · cases hno

end Machine

end ByteMachine
