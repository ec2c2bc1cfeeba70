/-
Which documents are configurations.

A configuration is read from an object that gives some of its settings, in any order. What is left out has its default,
and the configuration is then checked, memory first, registers next, the interval last. An object with a name that is no
setting, or with a name twice, is no configuration at all, whatever its values are.

Contents:
- `Json.fields?_refused`: when the fields of a record are found that refuses extra members;
- `Field`, `ofFields`: the settings by their names, and the configuration that some of them make;
- `FirstFault`: the first setting that is out of range, with the error that names it.

Main statements:
- `validate_eq_error_iff`: a check that fails names the first fault;
- `ofJson?_fieldMembers`: the settings that are given are read, and the others have their defaults;
- `documents_configure_exactly`: so reading a configuration succeeds, and fails, exactly as it should.
-/
import Mathlib.Tactic
import ByteMachine.Proofs.Document.Records
import ByteMachine.Proofs.Json.RoundTrip

namespace ByteMachine

/-! ## Objects -/

namespace Json

/-- a record without extra members finds its fields if each member is one of them, and none is there twice -/
theorem fields?_refused (names : List String) (members : List (String × Json)) :
    fields? .refused names (.object members) =
      if (∀ m ∈ members, m.1 ∈ names) ∧ (members.map Prod.fst).Nodup then some (names.map (lookup · members))
      else none := by
  have hlong : ((members.map Prod.fst).filter names.contains).length < members.length ↔
      ¬∀ m ∈ members, m.1 ∈ names := by
    have h := List.length_filter_lt_length_iff_exists (p := fun k => names.contains k) (l := members.map Prod.fst)
    rw [List.length_map] at h
    rw [h]
    simp
  by_cases hall : ∀ m ∈ members, m.1 ∈ names
  · have hknown : (members.map Prod.fst).filter names.contains = members.map Prod.fst := by
      rw [List.filter_eq_self]
      intro k hk
      obtain ⟨m, hm, rfl⟩ := List.mem_map.1 hk
      simpa using hall m hm
    by_cases hn : (members.map Prod.fst).Nodup
    · rw [if_pos ⟨hall, hn⟩]
      simp [fields?, hknown, hn]
    · rw [if_neg fun h => hn h.2]
      simp [fields?, hknown, hn]
  · rw [if_neg fun h => hall h.1]
    have hextra := hlong.2 hall
    simp only [fields?, hextra, and_self, if_true, ite_self]

/-- an object of numbers -/
def numbers (ms : List (String × ℕ)) : List (String × Json) :=
  ms.map fun m => (m.1, .nat m.2)

theorem isPlain_numbers (ms : List (String × ℕ)) : (Json.object (numbers ms)).isPlain = true := by
  rw [isPlain]
  induction ms with
  | nil => rfl
  | cons m ms ih => exact ih

end Json

namespace Config

/-! ## Settings by their names -/

/-- the settings that a document may give -/
inductive Field
  | memorySize
  | registerCount
  | clockIntervalMs
  deriving DecidableEq

namespace Field

def name : Field → String
  | .memorySize => "memorySize"
  | .registerCount => "registerCount"
  | .clockIntervalMs => "clockIntervalMs"

/-- the value of a setting that is left out -/
def default : Field → ℕ
  | .memorySize => 256
  | .registerCount => 8
  | .clockIntervalMs => 1000

theorem name_injective : Function.Injective name := by
  intro f g
  cases f <;> cases g <;> decide

theorem mem_names_iff (key : String) :
    key ∈ ["memorySize", "registerCount", "clockIntervalMs"] ↔ ∃ f : Field, key = f.name := by
  simp only [List.mem_cons, List.not_mem_nil, or_false]
  constructor
  · rintro (rfl | rfl | rfl)
    · exact ⟨.memorySize, rfl⟩
    · exact ⟨.registerCount, rfl⟩
    · exact ⟨.clockIntervalMs, rfl⟩
  · rintro ⟨f, rfl⟩
    cases f <;> simp [name]

end Field

/-- the configuration with the settings that are given, and the default of each that is left out -/
def ofFields (given : List (Field × ℕ)) : Config :=
  let value (f : Field) : ℕ := (given.lookup f).getD f.default
  { memorySize := value .memorySize
    registerCount := value .registerCount
    clockIntervalMs := value .clockIntervalMs }

/-- the members of an object that gives these settings -/
def fieldMembers (given : List (Field × ℕ)) : List (String × Json) :=
  Json.numbers (given.map fun g => (g.1.name, g.2))

theorem lookup_fieldMembers (given : List (Field × ℕ)) (f : Field) :
    Json.lookup f.name (fieldMembers given) = (given.lookup f).map Json.nat := by
  induction given with
  | nil => rfl
  | cons g given ih =>
    obtain ⟨k, n⟩ := g
    show Json.lookup f.name ((k.name, .nat n) :: fieldMembers given) = _
    by_cases hk : f = k
    · subst hk
      rw [Json.lookup_cons_self, List.lookup_cons_self]
      rfl
    · rw [Json.lookup_cons_of_ne _ _ fun h => hk (Field.name_injective h).symm, ih, List.lookup_cons,
        beq_false_of_ne hk]

theorem settingOr_given {given : List (Field × ℕ)} (hwords : ∀ g ∈ given, g.2 < Text.bound64) (f : Field) :
    settingOr f.default ((given.lookup f).map Json.nat) = some ((given.lookup f).getD f.default) := by
  cases hf : given.lookup f with
  | none => rfl
  | some n =>
    obtain ⟨before, after, hgiven, -⟩ := List.lookup_eq_some_iff.1 hf
    have hn : n < Text.bound64 := hwords (f, n) (by rw [hgiven]; simp)
    exact (Json.word?_nat n).trans (if_pos hn)

/-! ## Reading -/

/-- **The settings that are given are read**, and the others have their defaults. -/
theorem ofJson?_fieldMembers {given : List (Field × ℕ)} (honce : (given.map Prod.fst).Nodup)
    (hwords : ∀ g ∈ given, g.2 < Text.bound64) : ofJson? (.object (fieldMembers given)) = some (ofFields given) := by
  have hnames : (fieldMembers given).map Prod.fst = (given.map Prod.fst).map Field.name := by
    simp [fieldMembers, Json.numbers, Function.comp_def]
  have hall : ∀ m ∈ fieldMembers given, m.1 ∈ ["memorySize", "registerCount", "clockIntervalMs"] := by
    intro m hm
    have hm' := List.mem_map_of_mem (f := Prod.fst) hm
    rw [hnames] at hm'
    obtain ⟨f, -, hf⟩ := List.mem_map.1 hm'
    exact (Field.mem_names_iff _).2 ⟨f, hf.symm⟩
  have hfields := Json.fields?_refused ["memorySize", "registerCount", "clockIntervalMs"] (fieldMembers given)
  rw [if_pos ⟨hall, hnames ▸ honce.map Field.name_injective⟩] at hfields
  have hvalue : ∀ f : Field, settingOr f.default (Json.lookup f.name (fieldMembers given)) =
      some ((given.lookup f).getD f.default) := fun f => by rw [lookup_fieldMembers, settingOr_given hwords]
  have hmemory := hvalue .memorySize
  have hregisters := hvalue .registerCount
  have hinterval := hvalue .clockIntervalMs
  simp only [Field.name, Field.default] at hmemory hregisters hinterval
  simp only [ofJson?, hfields, List.map_cons, List.map_nil, hmemory, hregisters, hinterval, Option.bind_eq_bind,
    Option.bind_some]
  rfl

/-- an object with a name that is no setting, or with a name twice, is no configuration -/
theorem ofJson?_eq_none {members : List (String × Json)}
    (h : (∃ m ∈ members, ∀ f : Field, m.1 ≠ f.name) ∨ ¬(members.map Prod.fst).Nodup) :
    ofJson? (.object members) = none := by
  have hfields := Json.fields?_refused ["memorySize", "registerCount", "clockIntervalMs"] members
  have hrefused : ¬((∀ m ∈ members, m.1 ∈ ["memorySize", "registerCount", "clockIntervalMs"]) ∧
      (members.map Prod.fst).Nodup) := by
    rintro ⟨hall, hn⟩
    rcases h with ⟨m, hm, hno⟩ | h
    · obtain ⟨f, hf⟩ := (Field.mem_names_iff _).1 (hall m hm)
      exact hno f hf
    · exact h hn
  rw [if_neg hrefused] at hfields
  rw [ofJson?, hfields]

/-- the first setting that is out of range, with the error that names it; an interval that is, is zero -/
inductive FirstFault (c : Config) : ConfigError → Prop
  | memory (h : ¬(1 ≤ c.memorySize ∧ c.memorySize ≤ 256)) : FirstFault c (.memorySize c.memorySize)
  | registers (hm : 1 ≤ c.memorySize ∧ c.memorySize ≤ 256) (h : ¬(1 ≤ c.registerCount ∧ c.registerCount ≤ 256)) :
      FirstFault c (.registerCount c.registerCount)
  | interval (hm : 1 ≤ c.memorySize ∧ c.memorySize ≤ 256) (hr : 1 ≤ c.registerCount ∧ c.registerCount ≤ 256)
      (h : ¬1 ≤ c.clockIntervalMs) : FirstFault c .clockInterval

/-- **A check that fails names the first fault.** -/
theorem validate_eq_error_iff (c : Config) (e : ConfigError) : c.validate = .error e ↔ c.FirstFault e := by
  have hrange : ∀ n, (n < 1 || 256 < n) = true ↔ ¬(1 ≤ n ∧ n ≤ 256) := fun n => by
    rw [Bool.or_eq_true, decide_eq_true_eq, decide_eq_true_eq]
    omega
  constructor
  · intro h
    unfold validate at h
    simp only [hrange] at h
    split_ifs at h with hm hr hi
    · cases h
      exact .interval hm hr (by omega)
    · cases h
      exact .registers hm hr
    · cases h
      exact .memory hm
  · intro h
    unfold validate
    simp only [hrange]
    cases h with
    | memory h => rw [if_pos h]
    | registers hm h => rw [if_neg (not_not.2 hm), if_pos h]
    | interval hm hr h => rw [if_neg (not_not.2 hm), if_neg (not_not.2 hr), if_pos (by omega)]

/-- the settings are numbers of at most 64 bits -/
structure IsWordSized (c : Config) : Prop where
  memory : c.memorySize < Text.bound64
  registers : c.registerCount < Text.bound64
  interval : c.clockIntervalMs < Text.bound64

/-- all settings of a configuration -/
def toFields (c : Config) : List (Field × ℕ) :=
  [(.memorySize, c.memorySize), (.registerCount, c.registerCount), (.clockIntervalMs, c.clockIntervalMs)]

theorem toJson_eq (c : Config) : c.toJson = .object (fieldMembers c.toFields) := rfl

theorem ofFields_toFields (c : Config) : ofFields c.toFields = c := rfl

/-- a document that gives every setting of a configuration is read as that configuration, and checked -/
theorem ofText_of_read {c : Config} (h : c.IsWordSized) {text : String} (hr : Json.read text = some c.toJson) :
    ofText text = c.validate := by
  have honce : (c.toFields.map Prod.fst).Nodup :=
    show [Field.memorySize, .registerCount, .clockIntervalMs].Nodup by decide
  have hwords : ∀ g ∈ c.toFields, g.2 < Text.bound64 := by
    simp only [toFields, List.forall_mem_cons]
    exact ⟨h.memory, h.registers, h.interval, nofun⟩
  rw [ofText, hr, Option.bind_some, toJson_eq, ofJson?_fieldMembers honce hwords, ofFields_toFields]

/-- **Configurations are read exactly.**
1. Let some of the settings be given, each once, in any order, as numbers of 64 bits. The object that gives them can be
written. Any text that it is read from is the configuration with these settings, and with the defaults of the others,
if that is valid; else the error is its first fault.
2. Any text of an object with a name that is no setting, or with a name twice, is malformed.
3. The document of a configuration, in either form, gives what checking the configuration gives. -/
theorem documents_configure_exactly :
    (∀ given : List (Field × ℕ), (given.map Prod.fst).Nodup → (∀ g ∈ given, g.2 < Text.bound64) →
      let j := Json.object (fieldMembers given)
      Json.read j.compact = some j ∧
      ∀ text, Json.read text = some j →
        (∀ c, ofText text = .ok c ↔ c = ofFields given ∧ c.Valid) ∧
        ∀ e, ofText text = .error e ↔ (ofFields given).FirstFault e) ∧
    (∀ text members, Json.read text = some (.object members) →
      (∃ m ∈ members, ∀ f : Field, m.1 ≠ f.name) ∨ ¬(members.map Prod.fst).Nodup → ofText text = .error .malformed) ∧
    ∀ c : Config, c.IsWordSized → ofText c.toJson.compact = c.validate ∧ ofText c.toJson.spread = c.validate := by
  refine ⟨fun given honce hwords => ⟨Json.read_compact (Json.isPlain_numbers _), fun text htext => ?_⟩,
    fun text members htext h => ?_, fun c hc => ⟨?_, ?_⟩⟩
  · have hread : ofText text = (ofFields given).validate := by
      rw [ofText, htext, Option.bind_some, ofJson?_fieldMembers honce hwords]
    rw [hread]
    refine ⟨fun c => ?_, validate_eq_error_iff _⟩
    rw [validate_eq_ok_iff]
    constructor
    · rintro ⟨rfl, hv⟩
      exact ⟨rfl, hv⟩
    · rintro ⟨rfl, hv⟩
      exact ⟨rfl, hv⟩
  · rw [ofText, htext, Option.bind_some, ofJson?_eq_none h]
  · refine ofText_of_read hc ?_
    rw [toJson_eq]
    exact Json.read_compact (Json.isPlain_numbers _)
  · refine ofText_of_read hc ?_
    rw [toJson_eq]
    exact Json.read_spread_bare (Json.isPlain_numbers _)

/-- two settings out of their order, one of them spelled with an escape, and one too large -/
theorem documents_configure_exactly_disordered :
    let text := "\x7b \"registerCount\": 300,\n\"memory\\u0053ize\" :0 \x7d"
    let given : List (Field × ℕ) := [(.registerCount, 300), (.memorySize, 0)]
    (given.map Prod.fst).Nodup ∧ (∀ g ∈ given, g.2 < Text.bound64) ∧
      Json.read text = some (.object (fieldMembers given)) ∧ ofText text = .error (.memorySize 0) := by
  intro text given
  have honce : (given.map Prod.fst).Nodup := by decide
  have hwords : ∀ g ∈ given, g.2 < Text.bound64 := by decide
  have htokens : Json.tokenize text.toList = some (Json.tokensOf (.object (fieldMembers given))) := by decide +kernel
  have hread : Json.read text = some (.object (fieldMembers given)) := by
    rw [Json.read, htokens, Option.bind_some]
    exact Json.ofTokens?_tokensOf (Json.isPlain_numbers _)
  obtain ⟨-, htexts⟩ := documents_configure_exactly.1 given honce hwords
  exact ⟨honce, hwords, hread, ((htexts text hread).2 _).2 (.memory (by decide))⟩

end Config

end ByteMachine
