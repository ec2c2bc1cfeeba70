/-
The latest change counts.

Many operations of a state set a part of it or leave that part as it is. After a sequence of them the part is what was
set last, or what it was at the start.

Contents:
- `latest`: what was set last.

Main statements: `latest_concat`, `latest_map` and `part_foldl`.
-/
import Mathlib.Tactic

namespace ByteMachine

variable {σ Op V W : Type}

/-- what the operations set last, or the value at the start -/
def latest (sets? : Op → Option V) (start : V) (ops : List Op) : V :=
  (ops.filterMap sets?).getLast?.getD start

theorem latest_cons (sets? : Op → Option V) (start : V) (op : Op) (ops : List Op) :
    latest sets? start (op :: ops) = latest sets? ((sets? op).getD start) ops := by
  unfold latest
  cases hs : sets? op with
  | none => rw [List.filterMap_cons_none hs, Option.getD_none]
  | some v => rw [List.filterMap_cons_some hs, List.getLast?_cons, Option.getD_some, Option.getD_some]

/-- what is set at the end counts -/
theorem latest_concat (sets? : Op → Option V) (start : V) (ops : List Op) (op : Op) :
    latest sets? start (ops ++ [op]) = (sets? op).getD (latest sets? start ops) := by
  unfold latest
  rw [List.filterMap_append]
  cases hs : sets? op with
  | none => rw [List.filterMap_cons_none hs, List.filterMap_nil, List.append_nil, Option.getD_none]
  | some v =>
    rw [List.filterMap_cons_some hs, List.filterMap_nil, List.getLast?_concat, Option.getD_some, Option.getD_some]

/-- a function of what was set last -/
theorem latest_map (f : V → W) (sets? : Op → Option V) (start : V) (ops : List Op) :
    latest (fun op => (sets? op).map f) (f start) ops = f (latest sets? start ops) := by
  induction ops generalizing start with
  | nil => rfl
  | cons op ops ih => rw [latest_cons, latest_cons, Option.getD_map, ih]

/-- **A part that each operation sets or leaves alone is what was set last.** -/
theorem part_foldl {step : σ → Op → σ} {part : σ → V} {sets? : Op → Option V}
    (h : ∀ s op, part (step s op) = (sets? op).getD (part s)) (s : σ) (ops : List Op) :
    part (ops.foldl step s) = latest sets? (part s) ops := by
  induction ops generalizing s with
  | nil => rfl
  | cons op ops ih => rw [List.foldl_cons, ih, h, latest_cons]

end ByteMachine
