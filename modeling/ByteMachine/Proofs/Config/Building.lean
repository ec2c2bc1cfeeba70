/-
What is built from settings.

Of the settings of one kind the last one counts, and nothing is checked before the end. Numbers of cells and of registers
are kept as they are given. An interval is kept in whole milliseconds as long as there are fewer than 2 ^ 64 of them.
From there on the number begins again at zero, so that a longer interval is never kept, and one of exactly 2 ^ 64
milliseconds is even refused as too short.

Contents:
- `Setting.memorySize?`, `registerCount?`, `clockInterval?`: what a setting gives;
- `lastGiven`: the settings that count;
- `endOfInterval`: the first interval that is too long.

Main statements:
- `build_eq`: what is built is what was given last, checked;
- `wholeMs_of_lt`, `wholeMs_mul`: what is kept of an interval;
- `build_keeps_settings`: building succeeds, and keeps the interval, exactly as it should up to that length;
- `build_refuses_longest`: and not beyond.
-/
import Mathlib.Tactic
import ByteMachine.Proofs.Document.Configuring
import ByteMachine.Proofs.Latest

namespace ByteMachine.Config

namespace Setting

def memorySize? : Setting → Option ℕ
  | .memorySize n => some n
  | _ => none

def registerCount? : Setting → Option ℕ
  | .registerCount n => some n
  | _ => none

/-- in nanoseconds -/
def clockInterval? : Setting → Option ℕ
  | .clockInterval ns => some ns
  | _ => none

end Setting

/-! ## The settings that count -/

/-- the interval that was given last, in nanoseconds, or a second -/
def lastInterval (settings : List Setting) : ℕ :=
  latest Setting.clockInterval? 1000000000 settings

/-- the settings that were given last, and the defaults of those that were not -/
def lastGiven (settings : List Setting) : Config where
  memorySize := latest Setting.memorySize? 256 settings
  registerCount := latest Setting.registerCount? 8 settings
  clockIntervalMs := wholeMs (lastInterval settings)

theorem memorySize_apply (c : Config) (s : Setting) :
    (c.apply s).memorySize = s.memorySize?.getD c.memorySize := by
  cases s <;> rfl

theorem registerCount_apply (c : Config) (s : Setting) :
    (c.apply s).registerCount = s.registerCount?.getD c.registerCount := by
  cases s <;> rfl

theorem clockIntervalMs_apply (c : Config) (s : Setting) :
    (c.apply s).clockIntervalMs = (s.clockInterval?.map wholeMs).getD c.clockIntervalMs := by
  cases s <;> rfl

/-- the settings one after the other leave those that were given last -/
theorem foldl_apply (settings : List Setting) : settings.foldl apply {} = lastGiven settings := by
  have hmemory := part_foldl memorySize_apply {} settings
  have hregisters := part_foldl registerCount_apply {} settings
  have hinterval : (settings.foldl apply {}).clockIntervalMs = wholeMs (lastInterval settings) :=
    (part_foldl clockIntervalMs_apply {} settings).trans (latest_map wholeMs _ 1000000000 settings)
  cases hc : settings.foldl apply {} with
  | mk memory registers interval =>
    rw [hc] at hmemory hregisters hinterval
    dsimp only at hmemory hregisters hinterval
    rw [lastGiven, hmemory, hregisters, hinterval]

/-- **What is built is what was given last, checked.** -/
theorem build_eq (settings : List Setting) : build settings = (lastGiven settings).validate := by
  rw [build, foldl_apply]

theorem build_eq_ok_iff (settings : List Setting) (c : Config) :
    build settings = .ok c ↔ c = lastGiven settings ∧ (lastGiven settings).Valid := by
  rw [build_eq, validate_eq_ok_iff, eq_comm]

/-! ## Intervals -/

/-- the first interval with more milliseconds than 64 bits can tell, in nanoseconds -/
def endOfInterval : ℕ :=
  Text.bound64 * 1000000

theorem wholeMs_of_lt {ns : ℕ} (h : ns < endOfInterval) : wholeMs ns = ns / 1000000 := by
  have hms : ns / 1000000 < Text.bound64 := Nat.div_lt_of_lt_mul (by rwa [Nat.mul_comm])
  exact Nat.mod_eq_of_lt hms

/-- what is kept of an interval: its whole milliseconds, as far as 64 bits go -/
theorem wholeMs_mul (ns : ℕ) : wholeMs ns * 1000000 = (ns - ns % 1000000) % endOfInterval := by
  have hwhole : ns - ns % 1000000 = ns / 1000000 * 1000000 := by omega
  calc wholeMs ns * 1000000
      = ns / 1000000 % Text.bound64 * 1000000 := by rw [wholeMs]
    _ = ns / 1000000 * 1000000 % endOfInterval := (Nat.mul_mod_mul_right ..).symm
    _ = (ns - ns % 1000000) % endOfInterval := by rw [hwhole]

/-- up to there an interval is at least a millisecond long exactly if what is kept of it is -/
theorem one_le_wholeMs_iff {ns : ℕ} (h : ns < endOfInterval) : 1 ≤ wholeMs ns ↔ 1000000 ≤ ns := by
  rw [wholeMs_of_lt h, Nat.one_le_div_iff (by decide)]

/-- **A configuration keeps the settings that were given last.** Take any sequence of settings.
1. Building succeeds exactly if those that were given last are in range, after the interval was cut to milliseconds and
   to 64 bits, and gives these. Else the error is the first of them that is not.
2. Let the last interval have fewer than 2 ^ 64 milliseconds. Then building succeeds exactly if there are 1 to 256 cells,
   1 to 256 registers and an interval of at least a millisecond, and keeps the interval in whole milliseconds.
3. Whatever the last interval is, what is kept of it is what is left after taking away 2 ^ 64 milliseconds as often as
   possible. So a longer one is never kept. -/
theorem build_keeps_settings (settings : List Setting) :
    let cells := latest Setting.memorySize? 256 settings
    let registers := latest Setting.registerCount? 8 settings
    let ns := latest Setting.clockInterval? 1000000000 settings
    ((∀ c, build settings = .ok c ↔
        c = ⟨cells, registers, wholeMs ns⟩ ∧ (1 ≤ cells ∧ cells ≤ 256) ∧ (1 ≤ registers ∧ registers ≤ 256) ∧
          1 ≤ wholeMs ns) ∧
      ∀ e, build settings = .error e ↔ FirstFault ⟨cells, registers, wholeMs ns⟩ e) ∧
    (ns < endOfInterval →
      ((∃ c, build settings = .ok c) ↔
        (1 ≤ cells ∧ cells ≤ 256) ∧ (1 ≤ registers ∧ registers ≤ 256) ∧ 1000000 ≤ ns) ∧
      ∀ c, build settings = .ok c → c.clockInterval = ns - ns % 1000000) ∧
    ∀ c, build settings = .ok c →
      c.clockInterval = (ns - ns % 1000000) % endOfInterval ∧
      (c.clockInterval = ns - ns % 1000000 ↔ ns < endOfInterval) := by
  intro cells registers ns
  have hok : ∀ c, build settings = .ok c ↔
      c = lastGiven settings ∧ (1 ≤ cells ∧ cells ≤ 256) ∧ (1 ≤ registers ∧ registers ≤ 256) ∧ 1 ≤ wholeMs ns := by
    intro c
    rw [build_eq_ok_iff]
    constructor
    · rintro ⟨hc, hv⟩
      exact ⟨hc, hv.memory, hv.registers, hv.interval⟩
    · rintro ⟨hc, hm, hr, hi⟩
      exact ⟨hc, hm, hr, hi⟩
  have hkept : ∀ c, build settings = .ok c → c.clockInterval = (ns - ns % 1000000) % endOfInterval := by
    intro c hc
    rw [((hok c).1 hc).1]
    exact wholeMs_mul ns
  have hshort : ∀ c, build settings = .ok c → (c.clockInterval = ns - ns % 1000000 ↔ ns < endOfInterval) := by
    intro c hc
    rw [hkept c hc, Nat.mod_eq_iff_lt (by decide)]
    have hend : endOfInterval % 1000000 = 0 := by decide
    omega
  refine ⟨⟨hok, ?_⟩, ?_, fun c hc => ⟨hkept c hc, hshort c hc⟩⟩
  · intro e
    rw [build_eq]
    exact validate_eq_error_iff _ e
  · intro hns
    refine ⟨?_, fun c hc => (hshort c hc).2 hns⟩
    rw [← one_le_wholeMs_iff hns]
    constructor
    · rintro ⟨c, hc⟩
      exact ((hok c).1 hc).2
    · intro hrange
      exact ⟨_, (hok _).2 ⟨rfl, hrange⟩⟩

/-- two intervals, of which the last has a rest below a millisecond, and a number of cells that is corrected -/
def corrected : List Setting :=
  [.memorySize 0, .clockInterval 5, .clockInterval 1999999, .memorySize 16]

theorem build_keeps_settings_corrected :
    latest Setting.clockInterval? 1000000000 corrected < endOfInterval ∧
      build corrected = .ok { memorySize := 16, clockIntervalMs := 1 } ∧
      ∃ c, build corrected = .ok c ∧ c.clockInterval = 1000000 := by
  have hshort : latest Setting.clockInterval? 1000000000 corrected < endOfInterval := by decide
  obtain ⟨⟨hbuilt, -⟩, hkept, -⟩ := build_keeps_settings corrected
  have hc : build corrected = .ok { memorySize := 16, clockIntervalMs := 1 } := (hbuilt _).2 (by decide)
  exact ⟨hshort, hc, _, hc, (hkept hshort).2 _ hc⟩

/-- **The longest intervals are not kept**: 2 ^ 64 milliseconds, less than 2 ^ 64 seconds, are refused as too short,
though the other settings are in range, and with five milliseconds more only those five are kept. -/
theorem build_refuses_longest :
    (1000000 ≤ endOfInterval ∧ endOfInterval + 5000000 < Text.bound64 * 1000000000) ∧
      build [.clockInterval endOfInterval] = .error .clockInterval ∧
      ∃ c, build [.clockInterval (endOfInterval + 5000000)] = .ok c ∧ c.clockInterval = 5000000 := by
  refine ⟨by decide, by decide, _, rfl, by decide⟩

end ByteMachine.Config
