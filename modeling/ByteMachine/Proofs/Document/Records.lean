/-
Documents read back as what they were made from.

Every record of the library is written as an object with one member per field, in the order of the field names, and
taken apart by the same names. So one law about fields serves all records, and one law about lists serves programs,
memories, registers and traces. Numbers are the one place where reading is narrower than writing: a count above 64
bits is written in full and refused on reading. `State.IsWordSized` says that a state holds no such count, and the
laws below say exactly what happens with it and without it.

Contents:
- `Json.fields?_object`, `Json.list?_map`: fields and lists;
- `ofJson?_toJson` for programs, memories, registers, flags, trace entries and states;
- `isPlain_toJson`: the encoders make plain values.

Main statement: `State.ofJson?_toJson` (a state is read back exactly if it is word-sized, and refused otherwise).
-/
import Mathlib.Tactic
import ByteMachine.Document.State

namespace ByteMachine

/-! ## Fields and lists -/

namespace Json

theorem lookup_cons_self (name : String) (j : Json) (members : List (String × Json)) :
    lookup name ((name, j) :: members) = some j := by
  simp [lookup]

theorem lookup_cons_of_ne {name key : String} (j : Json) (members : List (String × Json)) (h : key ≠ name) :
    lookup name ((key, j) :: members) = lookup name members := by
  simp [lookup, h]

theorem map_lookup_zip {names : List String} {values : List Json} (hn : names.Nodup)
    (hl : names.length = values.length) : names.map (lookup · (names.zip values)) = values.map some := by
  induction names generalizing values with
  | nil =>
    rw [List.eq_nil_of_length_eq_zero hl.symm]
    rfl
  | cons name names ih =>
    cases values with
    | nil => simp at hl
    | cons j js =>
      obtain ⟨hne, hn⟩ := List.nodup_cons.1 hn
      have hrest : names.map (lookup · ((name, j) :: names.zip js)) = names.map (lookup · (names.zip js)) := by
        apply List.map_congr_left
        intro other ho
        exact lookup_cons_of_ne j _ fun he => hne (he ▸ ho)
      rw [List.zip_cons_cons, List.map_cons, List.map_cons, lookup_cons_self, hrest, ih hn (by simpa using hl)]

/-- an object made of the fields of a record has exactly these fields -/
theorem fields?_object {extra : ExtraMembers} {names : List String} (values : List Json) (hn : names.Nodup)
    (hl : names.length = values.length) :
    fields? extra names (.object (names.zip values)) = some (values.map some) := by
  have hk : ((names.zip values).map Prod.fst).filter names.contains = names := by
    rw [List.map_fst_zip hl.le, List.filter_eq_self]
    intro name h; simpa using h
  have hz : ¬(extra = .refused ∧ names.length < (names.zip values).length) := by
    rw [List.length_zip, ← hl, Nat.min_self]
    exact fun h => absurd h.2 (Nat.lt_irrefl _)
  simp only [fields?, hk, hn, decide_true, Bool.not_true, Bool.false_eq_true, if_false, hz, map_lookup_zip hn hl]

/-- a list of written items is read back exactly if each item is -/
theorem list?_map {α : Type} {item? : Json → Option α} {toJson : α → Json} {P : α → Prop} [DecidablePred P]
    (h : ∀ a, item? (toJson a) = if P a then some a else none) (xs : List α) :
    (Json.list (xs.map toJson)).list? item? = if ∀ a ∈ xs, P a then some xs else none := by
  show (xs.map toJson).mapM item? = _
  induction xs with
  | nil => rfl
  | cons x xs ih =>
    rw [List.map_cons, List.mapM_cons, h x, ih]
    by_cases hx : P x
    · by_cases hxs : ∀ a ∈ xs, P a
      · rw [if_pos hx, if_pos hxs, if_pos (List.forall_mem_cons.2 ⟨hx, hxs⟩)]; rfl
      · rw [if_pos hx, if_neg hxs, if_neg fun hc => hxs (List.forall_mem_cons.1 hc).2]; rfl
    · rw [if_neg hx, if_neg fun hc => hx (List.forall_mem_cons.1 hc).1]; rfl

theorem list?_map_of_forall {α : Type} {item? : Json → Option α} (toJson : α → Json)
    (h : ∀ a, item? (toJson a) = some a) (xs : List α) : (Json.list (xs.map toJson)).list? item? = some xs := by
  have := list?_map (P := fun _ => True) (fun a => by simpa using h a) xs
  simpa using this

theorem word?_nat (n : ℕ) : (nat n).word? = if n < Text.bound64 then some n else none := by
  simp [word?, natBelow?, nat]

theorem byte?_byte (b : UInt8) : (byte b).byte? = some b := by
  have h : b.toNat < 256 := b.toNat_lt
  simp [byte?, natBelow?, byte, nat, h]

theorem optionalText?_optionalText (s : Option String) : (optionalText s).optionalText? = some s := by
  cases s <;> rfl

theorem arePlain_map {α : Type} {toJson : α → Json} (h : ∀ a, (toJson a).isPlain = true) (xs : List α) :
    arePlain (xs.map toJson) = true := by
  induction xs with
  | nil => rfl
  | cons x xs ih => simp [arePlain, h x, ih]

end Json

/-! ## Records -/

theorem Program.ofJson?_toJson (p : Program) : Program.ofJson? p.toJson = some p := by
  have h : p.toJson.list? Json.str? = some p.sources :=
    Json.list?_map_of_forall Json.str (fun _ => rfl) p.sources
  rw [Program.ofJson?, h, Option.map_some, Program.ofTexts_sources]

theorem Memory.ofJson?_toJson (m : Memory) : Memory.ofJson? m.toJson = some m := by
  have h : m.toJson.list? Json.byte? = some m.cells := Json.list?_map_of_forall Json.byte Json.byte?_byte m.cells
  rw [Memory.ofJson?, h]
  rfl

theorem Registers.ofJson?_toJson (r : Registers) : Registers.ofJson? r.toJson = some r := by
  have hf : r.toJson.fields? .ignored ["general", "pc", "ir", "mar", "mdr"] = _ :=
    Json.fields?_object [.list (r.general.map .byte), .byte r.pc, .byte r.ir, .byte r.mar, .byte r.mdr] (by decide) rfl
  have hg := Json.list?_map_of_forall Json.byte Json.byte?_byte r.general
  simp [Registers.ofJson?, hf, hg, Json.byte?_byte]

theorem TraceEntry.ofJson?_toJson (e : TraceEntry) :
    TraceEntry.ofJson? e.toJson = if e.step < Text.bound64 then some e else none := by
  have hf : e.toJson.fields? .ignored ["step", "operation", "result"] = _ :=
    Json.fields?_object [.nat e.step, .str e.operation, .str e.result] (by decide) rfl
  by_cases h : e.step < Text.bound64 <;> simp [TraceEntry.ofJson?, hf, Json.word?_nat, Json.str?, h]

namespace State

/-- the pointer and the steps of the trace are numbers of at most 64 bits -/
def IsWordSized (s : State) : Prop :=
  s.currentStep < Text.bound64 ∧ ∀ e ∈ s.trace, e.step < Text.bound64

instance (s : State) : Decidable s.IsWordSized := by
  unfold IsWordSized; infer_instance

/-- **A state is read back exactly if it is word-sized**, and refused otherwise. -/
theorem ofJson?_toJson (s : State) : State.ofJson? s.toJson = if s.IsWordSized then some s else none := by
  have hf : s.toJson.fields? .ignored fieldNames = _ :=
    Json.fields?_object [s.registers.toJson, s.memory.toJson, .byte s.busA, .byte s.busB,
      .byte s.aluResult, s.aluFlags.toJson, s.flags.toJson, .nat s.currentStep,
      .list (s.trace.map TraceEntry.toJson), s.status.toJson] (by decide) rfl
  have ht := Json.list?_map TraceEntry.ofJson?_toJson s.trace
  have hw := Json.word?_nat s.currentStep
  by_cases hs : s.IsWordSized
  · rw [if_pos hs.1] at hw
    rw [if_pos hs.2] at ht
    simp [State.ofJson?, hf, hw, ht, hs, Json.byte?_byte, Registers.ofJson?_toJson, Memory.ofJson?_toJson,
      Flags.ofJson?_toJson, RunStatus.ofJson?_toJson]
  · rw [if_neg hs]
    by_cases hp : s.currentStep < Text.bound64
    · rw [if_neg fun ht => hs ⟨hp, ht⟩] at ht
      simp [State.ofJson?, hf, ht]
    · rw [if_neg hp] at hw
      simp [State.ofJson?, hf, hw]

end State

/-! ## Plain values -/

theorem Program.isPlain_toJson (p : Program) : p.toJson.isPlain = true :=
  Json.arePlain_map (fun _ => rfl) p.sources

theorem Registers.isPlain_toJson (r : Registers) : r.toJson.isPlain = true := by
  have hg : Json.arePlain (r.general.map .byte) = true := Json.arePlain_map (fun _ => rfl) r.general
  simp [Registers.toJson, Json.isPlain, Json.membersPlain, Json.byte, Json.nat, hg]

theorem State.isPlain_toJson (s : State) : s.toJson.isPlain = true := by
  have hr := s.registers.isPlain_toJson
  have hm : s.memory.toJson.isPlain = true := Json.arePlain_map (fun _ => rfl) s.memory.cells
  have ht : Json.arePlain (s.trace.map TraceEntry.toJson) = true := Json.arePlain_map (fun _ => rfl) s.trace
  simp [State.toJson, Json.isPlain, Json.membersPlain, Json.byte, Json.nat, Flags.toJson, RunStatus.toJson, hr, hm, ht]

end ByteMachine
