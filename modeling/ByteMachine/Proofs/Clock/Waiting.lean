/-
How long to wait for the clock.

A loop that is driven by the clock waits for as long as the clock says, and then asks it whether a tick is due. The two
answers agree whatever was done to the clock before. It stands still exactly if it was switched off last, or never
switched on, and then no tick is due at any time; else the tick is due from the end of the wait on and not earlier.
Being asked too early changes nothing, so it may be asked in between as often as one likes.

Contents:
- `ClockOp`, `Clock.perform`, `Clock.performAll`: what can be done with a clock;
- `ClockOp.switch?`: on or off?

Main statements:
- `isRunning_performAll`, `interval_performAll`: the clock after any operations;
- `performAll_poll_of_early`: asking too early;
- `isDue_poll_iff`: the tick after one that has fired;
- `untilNext_predicts_poll`: the wait and the tick, for every clock that can be had.
-/
import Mathlib.Tactic
import ByteMachine.Clock
import ByteMachine.Proofs.Latest

namespace ByteMachine

/-- what can be done with a clock -/
inductive ClockOp
  | start (now : ℕ)
  | stop
  | poll (now : ℕ)
  deriving DecidableEq, Repr

/-- does the operation switch the clock on, or off? -/
def ClockOp.switch? : ClockOp → Option Bool
  | .start _ => some true
  | .stop => some false
  | .poll _ => none

namespace Clock

def perform (c : Clock) : ClockOp → Clock
  | .start now => c.start now
  | .stop => c.stop
  | .poll now => c.poll now

/-- the clock after a sequence of operations -/
def performAll (c : Clock) (ops : List ClockOp) : Clock :=
  ops.foldl perform c

theorem performAll_cons (c : Clock) (op : ClockOp) (ops : List ClockOp) :
    c.performAll (op :: ops) = (c.perform op).performAll ops := rfl

/-! ## One operation -/

theorem poll_of_due {c : Clock} {now : ℕ} (h : c.isDue now = true) : c.poll now = c.start now :=
  if_pos h

theorem poll_of_not_due {c : Clock} {now : ℕ} (h : c.isDue now = false) : c.poll now = c :=
  if_neg (by rw [h]; exact Bool.false_ne_true)

/-- a clock that stands still never has a tick due -/
theorem isDue_of_not_running {c : Clock} (h : c.isRunning = false) (now : ℕ) : c.isDue now = false := by
  rw [isRunning, Option.isSome_eq_false_iff, Option.isNone_iff_eq_none] at h
  rw [isDue, h]

/-- no operation changes the interval -/
theorem interval_perform (c : Clock) (op : ClockOp) : (c.perform op).interval = c.interval := by
  cases op with
  | start now => rfl
  | stop => rfl
  | poll now =>
    show (c.poll now).interval = c.interval
    unfold poll
    split_ifs
    · rfl
    · rfl

/-- only a switch decides whether the clock runs -/
theorem isRunning_perform (c : Clock) (op : ClockOp) :
    (c.perform op).isRunning = op.switch?.getD c.isRunning := by
  cases op with
  | start now => rfl
  | stop => rfl
  | poll now =>
    show (c.poll now).isRunning = c.isRunning
    cases hd : c.isDue now with
    | true =>
      -- a clock that stands still would have no tick due
      have hr : c.isRunning ≠ false := fun h => by simp [isDue_of_not_running h] at hd
      rw [poll_of_due hd, Bool.eq_true_of_not_eq_false hr]
      rfl
    | false => rw [poll_of_not_due hd]

/-- the tick after one that was due at `now` is due an interval later -/
theorem isDue_poll_iff {c : Clock} {now : ℕ} (h : c.isDue now = true) (t : ℕ) :
    (c.poll now).isDue t = true ↔ now + c.interval ≤ t := by
  rw [poll_of_due h]
  exact decide_eq_true_iff

/-! ## Any operations -/

theorem interval_performAll (c : Clock) (ops : List ClockOp) : (c.performAll ops).interval = c.interval := by
  induction ops generalizing c with
  | nil => rfl
  | cons op ops ih => rw [performAll_cons, ih, interval_perform]

/-- **The latest switch decides whether the clock runs.** -/
theorem isRunning_performAll (c : Clock) (ops : List ClockOp) :
    (c.performAll ops).isRunning = latest ClockOp.switch? c.isRunning ops :=
  part_foldl isRunning_perform c ops

/-- **Being asked too early changes nothing**, however often. -/
theorem performAll_poll_of_early {c : Clock} {times : List ℕ} (h : ∀ t ∈ times, c.isDue t = false) :
    c.performAll (times.map .poll) = c := by
  induction times with
  | nil => rfl
  | cons t times ih =>
    have ht : c.perform (.poll t) = c := poll_of_not_due (h t List.mem_cons_self)
    rw [List.map_cons, performAll_cons, ht]
    exact ih fun t' ht' => h t' (List.mem_cons_of_mem t ht')

/-! ## Waiting -/

/-- the clock says nothing exactly if it stands still -/
theorem untilNext_eq_none_iff (c : Clock) (now : ℕ) : c.untilNext? now = none ↔ c.isRunning = false := by
  rw [untilNext?, Option.map_eq_none_iff, isRunning, Option.isSome_eq_false_iff, Option.isNone_iff_eq_none]

theorem isDue_before {c : Clock} {now d t : ℕ} (h : c.untilNext? now = some d) (hnow : now ≤ t) (ht : t < now + d) :
    c.isDue t = false := by
  rw [Bool.eq_false_iff, Ne, c.poll_after_untilNext now d t h hnow, not_le]
  exact ht

/-- **The wait and the tick.** Take a clock of any interval after any switching on and off and any questions, at any
times, and any time `now`.
1. It says how long to wait exactly if it runs, that is, if the latest switch was one on.
2. If it says nothing, no tick is due at any time, and asking changes nothing.
3. If it says to wait for `d`, the tick is due from then on, and not before, whatever it is asked in between.
4. When a tick that is due at `t` has fired, the next one is due from an interval after `t` on, and not before. -/
theorem untilNext_predicts_poll (interval : ℕ) (ops : List ClockOp) (now : ℕ) :
    let c := ({ interval } : Clock).performAll ops
    ((c.untilNext? now = none ↔ c.isRunning = false) ∧ c.isRunning = latest ClockOp.switch? false ops) ∧
    (c.untilNext? now = none → ∀ t, c.isDue t = false ∧ c.poll t = c) ∧
    (∀ d, c.untilNext? now = some d →
      (∀ t, now + d ≤ t → c.isDue t = true) ∧
      (∀ t, now ≤ t → t < now + d → c.isDue t = false) ∧
      ∀ times : List ℕ, (∀ t ∈ times, now ≤ t ∧ t < now + d) → c.performAll (times.map .poll) = c) ∧
    ∀ t, c.isDue t = true → ∀ t', (c.poll t).isDue t' = true ↔ t + interval ≤ t' := by
  intro c
  refine ⟨⟨c.untilNext_eq_none_iff now, isRunning_performAll _ ops⟩, ?_, ?_, ?_⟩
  · intro hnone t
    have hd : c.isDue t = false := isDue_of_not_running ((c.untilNext_eq_none_iff now).1 hnone) t
    exact ⟨hd, poll_of_not_due hd⟩
  · intro d hsome
    refine ⟨?_, fun t => isDue_before hsome, ?_⟩
    · intro t ht
      exact (c.poll_after_untilNext now d t hsome (by omega)).2 ht
    · intro times hearly
      exact performAll_poll_of_early fun t ht => isDue_before hsome (hearly t ht).1 (hearly t ht).2
  · intro t hdue t'
    have hinterval : c.interval = interval := interval_performAll _ ops
    rw [isDue_poll_iff hdue, hinterval]

/-- started at 3 with an interval of 5, asked too early and again when it is overdue -/
def overdue : List ClockOp :=
  [.start 3, .stop, .start 3, .poll 7, .poll 10]

theorem untilNext_predicts_poll_overdue :
    let c := ({ interval := 5 } : Clock).performAll overdue
    c.untilNext? 11 = some 4 ∧ c.isDue 15 = true ∧ c.isDue 14 = false ∧
      c.performAll ([11, 14, 12].map .poll) = c ∧ (c.poll 20).isDue 24 ≠ true ∧
      (({ interval := 5 } : Clock).performAll (overdue ++ [.stop])).isDue 100 = false := by
  intro c
  obtain ⟨-, -, hwait, hnext⟩ := untilNext_predicts_poll 5 overdue 11
  obtain ⟨-, hstopped, -⟩ := untilNext_predicts_poll 5 (overdue ++ [.stop]) 11
  have hd : c.untilNext? 11 = some 4 := by decide
  obtain ⟨hdue, hearly, hasked⟩ := hwait 4 hd
  refine ⟨hd, hdue 15 (by decide), hearly 14 (by decide) (by decide), hasked _ (by decide), ?_, ?_⟩
  · exact fun h => absurd ((hnext 20 (hdue 20 (by decide)) 24).1 h) (by decide)
  · exact (hstopped (by decide) 100).1

end Clock

end ByteMachine
