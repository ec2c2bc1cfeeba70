/-
Configurations: the sizes of a machine and the pace of its clock.

Contents:
- `Config`: the three settings with their defaults;
- `Config.validate`: memory, registers and interval, checked in this order;
- `Config.build`: a configuration from a sequence of settings, checked at the end. An interval is cut to whole
  milliseconds, and only the lowest 64 bits of their number are kept;
- `Config.clockInterval`: the interval that is kept.

Main statement: `validate_eq_ok_iff`.
-/
import ByteMachine.Text.Numeral

namespace ByteMachine

structure Config where
  /-- number of memory cells, 1 to 256 -/
  memorySize : Nat := 256
  /-- number of general registers, 1 to 256 -/
  registerCount : Nat := 8
  /-- milliseconds between two automatic steps, at least 1 -/
  clockIntervalMs : Nat := 1000
  deriving DecidableEq, Repr

/-- why a configuration is refused -/
inductive ConfigError
  | memorySize (n : Nat)
  | registerCount (n : Nat)
  | clockInterval
  /-- the text is no configuration at all -/
  | malformed
  deriving DecidableEq, Repr

def ConfigError.message : ConfigError → String
  | .memorySize n => "memory size " ++ Text.numeral n ++ " out of range (1-256)"
  | .registerCount n => "register count " ++ Text.numeral n ++ " out of range (1-256)"
  | .clockInterval => "clock interval must be at least 1 ms"
  | .malformed => "invalid config"

/-- what a machine says that is not built because of its configuration -/
def ConfigError.refusal (e : ConfigError) : String :=
  "configuration error: " ++ e.message

namespace Config

/-- every setting is in range -/
structure Valid (c : Config) : Prop where
  memory : 1 ≤ c.memorySize ∧ c.memorySize ≤ 256
  registers : 1 ≤ c.registerCount ∧ c.registerCount ≤ 256
  interval : 1 ≤ c.clockIntervalMs

/-- the configuration itself if it is valid, or the first setting out of range -/
def validate (c : Config) : Except ConfigError Config :=
  if c.memorySize < 1 || 256 < c.memorySize then .error (.memorySize c.memorySize)
  else if c.registerCount < 1 || 256 < c.registerCount then .error (.registerCount c.registerCount)
  else if c.clockIntervalMs = 0 then .error .clockInterval
  else .ok c

theorem validate_eq_ok_iff (c d : Config) : c.validate = .ok d ↔ c = d ∧ c.Valid := by
  unfold validate
  constructor
  · intro h
    split at h
    · cases h
    · split at h
      · cases h
      · split at h
        · cases h
        · cases h
          next h1 h2 h3 =>
            simp only [Bool.or_eq_true, decide_eq_true_eq, not_or] at h1 h2
            exact ⟨rfl, ⟨by omega, by omega⟩, ⟨by omega, by omega⟩, by omega⟩
  · rintro ⟨rfl, ⟨h1, h2⟩, ⟨h3, h4⟩, h5⟩
    have a1 : ¬(c.memorySize < 1) := by omega
    have a2 : ¬(256 < c.memorySize) := by omega
    have a3 : ¬(c.registerCount < 1) := by omega
    have a4 : ¬(256 < c.registerCount) := by omega
    have a5 : ¬(c.clockIntervalMs = 0) := by omega
    simp [a1, a2, a3, a4, a5]

/-! ## Building -/

/-- one setting given to the builder -/
inductive Setting
  | memorySize (n : Nat)
  | registerCount (n : Nat)
  /-- a duration in nanoseconds -/
  | clockInterval (ns : Nat)
  deriving DecidableEq, Repr

/-- whole milliseconds of a duration in nanoseconds, the lowest 64 bits -/
def wholeMs (ns : Nat) : Nat :=
  ns / 1000000 % Text.bound64

/-- the interval as a duration in nanoseconds -/
def clockInterval (c : Config) : Nat :=
  c.clockIntervalMs * 1000000

def apply (c : Config) : Setting → Config
  | .memorySize n => { c with memorySize := n }
  | .registerCount n => { c with registerCount := n }
  | .clockInterval ns => { c with clockIntervalMs := wholeMs ns }

/-- the defaults changed by each setting in turn; the last of a kind counts -/
def build (settings : List Setting) : Except ConfigError Config :=
  (settings.foldl apply {}).validate

end Config

end ByteMachine
