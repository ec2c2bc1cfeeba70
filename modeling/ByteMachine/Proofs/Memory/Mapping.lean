/-
A memory is a map of fixed size.

Whatever is done to a memory of `n` cells, it answers as a map does that gives a byte to every address below `n` and to
no other. The map keeps one byte per address and nothing else. So a cell has what was written to it last since the
memory was cleared, or zero, and nothing that is done outside leaves a trace.

A window ends at the sum of two numbers of 64 bits, and that may have more than 64. Then the end is held at the greatest
number, and no memory that 64 bits can address is larger than that. So the same window with every address kept in 64
bits and every cell looked up never stops, and has the same entries.

Contents:
- `MemoryOp`, `MemoryReply`, `Memory.perform`: what can be done with a memory, and what it answers;
- `repliesOf`, `stateAfter`: a sequence of operations;
- `CellMap`: the map, with the same operations;
- `Memory.Realizes`: the memory has the size of the map and reads as it does;
- `MemoryOp.puts?`, `sinceClear`: what the operations have left at an address;
- `Memory.dump?`: a window with all its arithmetic and all its cells checked.

Main statements:
- `replies_simulated`: what answers alike step by step answers alike for good;
- `Memory.Realizes.perform`: one operation on a memory and on its map;
- `CellMap.get_stateAfter`: the map after any operations;
- `Memory.dump?_eq`: no check ever fails;
- `Memory.refines_cellMap`: a memory after any operations.
-/
import Mathlib.Tactic
import Mathlib.Data.List.DropRight
import Mathlib.Data.List.Intervals
import ByteMachine.Memory
import ByteMachine.Proofs.Latest

namespace ByteMachine

/-! ## Sequences of operations -/

section Sequences

variable {σ τ Op R : Type}

/-- what is answered to a sequence of operations -/
def repliesOf (perform : σ → Op → R × σ) : σ → List Op → List R
  | _, [] => []
  | s, op :: ops => (perform s op).1 :: repliesOf perform (perform s op).2 ops

/-- what a sequence of operations leaves -/
def stateAfter (perform : σ → Op → R × σ) (s : σ) (ops : List Op) : σ :=
  ops.foldl (fun s op => (perform s op).2) s

theorem stateAfter_concat (perform : σ → Op → R × σ) (s : σ) (ops : List Op) (op : Op) :
    stateAfter perform s (ops ++ [op]) = (perform (stateAfter perform s ops) op).2 :=
  List.foldl_concat ..

/-- **Alike step by step, alike for good.** If two related states give the same reply to every operation and are related
again after it, they give the same replies to every sequence of operations. -/
theorem replies_simulated {perform : σ → Op → R × σ} {perform' : τ → Op → R × τ} {Rel : σ → τ → Prop}
    (h : ∀ s t op, Rel s t → (perform s op).1 = (perform' t op).1 ∧ Rel (perform s op).2 (perform' t op).2)
    {s : σ} {t : τ} (hst : Rel s t) (ops : List Op) :
    repliesOf perform s ops = repliesOf perform' t ops ∧
      Rel (stateAfter perform s ops) (stateAfter perform' t ops) := by
  induction ops generalizing s t with
  | nil => exact ⟨rfl, hst⟩
  | cons op ops ih =>
    obtain ⟨hreply, hnext⟩ := h s t op hst
    obtain ⟨hreplies, hlast⟩ := ih hnext
    exact ⟨congrArg₂ List.cons hreply hreplies, hlast⟩

end Sequences

/-! ## Operations on a memory -/

/-- what can be done with a memory -/
inductive MemoryOp
  | write (address : ℕ) (b : UInt8)
  | store (address : ℕ) (b : UInt8)
  | read (address : ℕ)
  | clear
  | dump (start count : ℕ)
  deriving DecidableEq, Repr

/-- what a memory answers -/
inductive MemoryReply
  /-- was there a cell to write to? -/
  | written (found : Bool)
  /-- it was stored -/
  | accepted
  /-- it was not stored -/
  | refused (e : AddressOutOfRange)
  | byte (b : UInt8)
  | cleared
  | window (entries : List (ℕ × UInt8))
  deriving DecidableEq, Repr

namespace Memory

def perform (m : Memory) : MemoryOp → MemoryReply × Memory
  | .write address b => (.written (m.holds address), m.write address b)
  | .store address b =>
    match m.store address b with
    | .error e => (.refused e, m)
    | .ok m => (.accepted, m)
  | .read address => (.byte (m.read address), m)
  | .clear => (.cleared, m.clear)
  | .dump start count => (.window (m.dump start count), m)

theorem perform_store_of_lt {m : Memory} {address : ℕ} (h : address < m.size) (b : UInt8) :
    m.perform (.store address b) = (.accepted, m.write address b) := by
  simp [perform, store, holds, h]

theorem perform_store_of_le {m : Memory} {address : ℕ} (h : m.size ≤ address) (b : UInt8) :
    m.perform (.store address b) = (.refused ⟨address, m.size⟩, m) := by
  simp [perform, store, holds, Nat.not_lt.2 h]

/-- a window has the addresses from its start up to its end or to the end of the memory, in order -/
theorem dump_eq_Ico (m : Memory) (start count : ℕ) :
    m.dump start count = (List.Ico start (min (start + count) m.size)).map fun a => (a, m.read a) := by
  have hlength : min count (m.size - start) = min (start + count) m.size - start := by omega
  rw [dump_eq, List.Ico, hlength]

end Memory

/-! ## The map -/

/-- a byte for every address below `n` -/
def CellMap (n : ℕ) : Type :=
  Fin n → UInt8

namespace CellMap

variable {n : ℕ}

def zero (n : ℕ) : CellMap n := fun _ => 0

/-- the byte at an address; zero if the map has no such address -/
def get (c : CellMap n) (a : ℕ) : UInt8 :=
  if h : a < n then c ⟨a, h⟩ else 0

/-- the map with this byte at the address, if it has such an address -/
def put (c : CellMap n) (address : ℕ) (b : UInt8) : CellMap n := fun i =>
  if i.val = address then b else c i

/-- the addresses from `start` up to the exact sum of `start` and `count`, as far as the map has them -/
def window (c : CellMap n) (start count : ℕ) : List (ℕ × UInt8) :=
  (List.Ico start (min (start + count) n)).map fun a => (a, c.get a)

def perform (c : CellMap n) : MemoryOp → MemoryReply × CellMap n
  | .write address b => (.written (decide (address < n)), c.put address b)
  | .store address b => (if address < n then .accepted else .refused ⟨address, n⟩, c.put address b)
  | .read address => (.byte (c.get address), c)
  | .clear => (.cleared, zero n)
  | .dump start count => (.window (c.window start count), c)

@[simp] theorem get_zero (a : ℕ) : (zero n).get a = 0 := by
  unfold get zero
  split_ifs <;> rfl

theorem get_of_le {a : ℕ} (h : n ≤ a) (c : CellMap n) : c.get a = 0 :=
  dif_neg (Nat.not_lt.2 h)

theorem get_put (c : CellMap n) (a address : ℕ) (b : UInt8) :
    (c.put address b).get a = if a = address ∧ address < n then b else c.get a := by
  unfold get put
  by_cases ha : a < n
  · by_cases he : a = address
    · subst he
      simp [ha]
    · simp [ha, he]
  · have hout : ¬(a = address ∧ address < n) := by omega
    simp [ha, hout]

end CellMap

/-! ## The map after any operations -/

/-- the byte that an operation puts at the address -/
def MemoryOp.puts? (a : ℕ) : MemoryOp → Option UInt8
  | .write address b | .store address b => if address = a then some b else none
  | .read _ | .clear | .dump _ _ => none

/-- the operations since the memory was cleared last -/
def sinceClear (ops : List MemoryOp) : List MemoryOp :=
  ops.rtakeWhile (· ≠ .clear)

theorem sinceClear_concat_clear (ops : List MemoryOp) : sinceClear (ops ++ [.clear]) = [] :=
  List.rtakeWhile_concat_neg _ _ _ (by simp)

theorem sinceClear_concat {op : MemoryOp} (h : op ≠ .clear) (ops : List MemoryOp) :
    sinceClear (ops ++ [op]) = sinceClear ops ++ [op] :=
  List.rtakeWhile_concat_pos _ _ _ (decide_eq_true h)

namespace CellMap

variable {n : ℕ}

/-- an operation other than clearing changes what it puts, and that only -/
theorem get_perform (c : CellMap n) {op : MemoryOp} (h : op ≠ .clear) {a : ℕ} (ha : a < n) :
    (c.perform op).2.get a = (op.puts? a).getD (c.get a) := by
  have hput (address : ℕ) (b : UInt8) :
      (c.put address b).get a = (if address = a then some b else none).getD (c.get a) := by
    rw [get_put]
    by_cases he : address = a
    · subst he
      simp [ha]
    · simp [he, Ne.symm he]
  cases op with
  | write address b => exact hput address b
  | store address b => exact hput address b
  | clear => exact absurd rfl h
  | read | dump => rfl

/-- **The latest write counts**, of those since the map was cleared. -/
theorem get_stateAfter (ops : List MemoryOp) (a : ℕ) :
    (stateAfter perform (zero n) ops).get a =
      if a < n then latest (MemoryOp.puts? a) 0 (sinceClear ops) else 0 := by
  split_ifs with ha
  · induction ops using List.reverseRecOn with
    | nil => exact get_zero a
    | append_singleton ops op ih =>
      rw [stateAfter_concat]
      by_cases h : op = .clear
      · subst h
        rw [sinceClear_concat_clear]
        exact get_zero a
      · rw [get_perform _ h ha, ih, sinceClear_concat h, latest_concat]
  · exact get_of_le (Nat.not_lt.1 ha) _

end CellMap

/-! ## A memory and its map -/

namespace Memory

variable {n : ℕ} {m : Memory} {c : CellMap n}

/-- the memory has the size of the map, and reads as it does at every address -/
structure Realizes (m : Memory) (c : CellMap n) : Prop where
  size : m.size = n
  read : ∀ a, m.read a = c.get a

namespace Realizes

theorem zeroed (n : ℕ) : (zeroed n).Realizes (CellMap.zero n) where
  size := size_zeroed n
  read a := by
    rw [CellMap.get_zero, Memory.read, Memory.zeroed, List.getD_eq_getElem?_getD, List.getElem?_replicate]
    split_ifs <;> rfl

theorem write (h : m.Realizes c) (address : ℕ) (b : UInt8) : (m.write address b).Realizes (c.put address b) where
  size := (size_write ..).trans h.size
  read a := by rw [read_write, CellMap.get_put, h.size, h.read]

theorem clear (h : m.Realizes c) : m.clear.Realizes (CellMap.zero n) := by
  rw [Memory.clear, h.size]
  exact .zeroed n

theorem dump (h : m.Realizes c) (start count : ℕ) : m.dump start count = c.window start count := by
  rw [dump_eq_Ico, CellMap.window, h.size]
  simp only [h.read]

/-- **One operation** gets the same reply from a memory and from its map, and leaves a memory and its map. -/
theorem perform (h : m.Realizes c) (op : MemoryOp) :
    (m.perform op).1 = (c.perform op).1 ∧ (m.perform op).2.Realizes (c.perform op).2 := by
  cases op with
  | write address b =>
    refine ⟨?_, h.write address b⟩
    show MemoryReply.written (decide (address < m.size)) = .written (decide (address < n))
    rw [h.size]
  | store address b =>
    have hc := h.write address b
    by_cases ha : address < m.size
    · have hn : address < n := h.size ▸ ha
      rw [perform_store_of_lt ha]
      exact ⟨(if_pos hn).symm, hc⟩
    · have hn : ¬address < n := h.size ▸ ha
      rw [perform_store_of_le (Nat.not_lt.1 ha)]
      rw [write_of_size_le (Nat.not_lt.1 ha)] at hc
      exact ⟨by rw [h.size]; exact (if_neg hn).symm, hc⟩
  | read address => exact ⟨congrArg MemoryReply.byte (h.read address), h⟩
  | clear => exact ⟨rfl, h.clear⟩
  | dump start count => exact ⟨congrArg MemoryReply.window (h.dump start count), h⟩

end Realizes

end Memory

/-! ## Windows at the limit of 64 bits -/

/-- the number, if it has 64 bits -/
def checked64 (n : ℕ) : Option ℕ :=
  if n < Text.bound64 then some n else none

/-- the sum of two numbers, held at the greatest number of 64 bits -/
def saturatedSum (a b : ℕ) : ℕ :=
  (checked64 (a + b)).getD (Text.bound64 - 1)

namespace Memory

/-- the cells from an address up to `stop`, if the address can be counted up to there and each has a cell -/
def gather? (m : Memory) (address stop : ℕ) : Option (List (ℕ × UInt8)) :=
  if address < stop then do
    let b ← m.cells[address]?
    let _ ← checked64 (address + 1)
    let rest ← m.gather? (address + 1) stop
    return (address, b) :: rest
  else some []
termination_by stop - address

/-- `dump`, with all its arithmetic and all its cells checked -/
def dump? (m : Memory) (start count : ℕ) : Option (List (ℕ × UInt8)) :=
  let stop := min (saturatedSum start count) m.size
  m.gather? (min start stop) stop

/-- inside a memory that 64 bits can address no check fails -/
theorem gather?_eq {m : Memory} {stop : ℕ} (hstop : stop ≤ m.size) (hbound : stop < Text.bound64) (address : ℕ) :
    m.gather? address stop = some ((List.Ico address stop).map fun a => (a, m.read a)) := by
  fun_induction m.gather? address stop with
  | case1 address h ih =>
    have hcount : checked64 (address + 1) = some (address + 1) := if_pos (by omega)
    simp only [getElem?_cells (show address < m.size by omega), hcount, ih, Option.bind_eq_bind,
      Option.bind_some]
    rw [List.Ico.eq_cons h]
    rfl
  | case2 address h => rw [List.Ico.eq_nil_of_le (Nat.not_lt.1 h), List.map_nil]

/-- **No window leaves 64 bits or the memory.** No check fails, and the entries are the same. -/
theorem dump?_eq {m : Memory} (h : m.size < Text.bound64) (start count : ℕ) :
    m.dump? start count = some (m.dump start count) := by
  -- a sum that is held at the greatest number is not below the size either
  have hstop : min (saturatedSum start count) m.size = min (start + count) m.size := by
    unfold saturatedSum checked64
    split_ifs with hsum
    · rfl
    · simp only [Option.getD_none]
      omega
  have hsame : List.Ico (min start (min (start + count) m.size)) (min (start + count) m.size) =
      List.Ico start (min (start + count) m.size) := by
    by_cases hs : start ≤ min (start + count) m.size
    · rw [Nat.min_eq_left hs]
    · rw [List.Ico.eq_nil_of_le (by omega), List.Ico.eq_nil_of_le (by omega)]
  rw [dump?, hstop, gather?_eq (Nat.min_le_right ..) (by omega), hsame, dump_eq_Ico]

/-! ## Memories -/

/-- **A memory is a map of fixed size.** Take a zeroed memory of any size, and do anything with it.
1. It gives the replies of the map with that many addresses, and keeps its size.
2. To read changes nothing. Inside, an address reads what was written or stored there last since the memory was cleared,
   or zero if nothing was. Outside it reads zero.
3. A write finds a cell, and a store is accepted, exactly inside. Outside both change nothing, and a store names the
   address and the size.
4. To look at a window changes nothing. It has the addresses from `start` on that are below `start + count` and inside,
   in order and each with what is read there, and is empty exactly if there are none. If the size has 64 bits, no address
   leaves 64 bits and no cell is looked up that is not there. -/
theorem refines_cellMap (n : ℕ) (ops : List MemoryOp) :
    let m := stateAfter perform (zeroed n) ops
    (repliesOf perform (zeroed n) ops = repliesOf CellMap.perform (CellMap.zero n) ops ∧ m.size = n) ∧
    (∀ a,
      m.perform (.read a) = (.byte (m.read a), m) ∧
      m.read a = if a < n then latest (MemoryOp.puts? a) 0 (sinceClear ops) else 0) ∧
    (∀ a b,
      (m.perform (.write a b)).1 = .written (decide (a < n)) ∧
      ((m.perform (.store a b)).1 = .accepted ↔ a < n) ∧
      (n ≤ a → (m.perform (.write a b)).2 = m ∧ m.perform (.store a b) = (.refused ⟨a, n⟩, m))) ∧
    ∀ start count,
      m.perform (.dump start count) =
        (.window ((List.Ico start (min (start + count) n)).map fun a => (a, m.read a)), m) ∧
      (m.dump start count = [] ↔ min (start + count) n ≤ start) ∧
      (n < Text.bound64 → m.dump? start count = some (m.dump start count)) := by
  intro m
  obtain ⟨hreplies, hm⟩ :=
    replies_simulated (fun m (c : CellMap n) op (h : m.Realizes c) => h.perform op) (Realizes.zeroed n) ops
  have hsize : m.size = n := hm.size
  refine ⟨⟨hreplies, hsize⟩, fun a => ⟨rfl, ?_⟩, fun a b => ⟨?_, ?_, fun ha => ?_⟩, fun start count => ⟨?_, ?_, ?_⟩⟩
  · rw [hm.read, CellMap.get_stateAfter]
  · exact (hm.perform (.write a b)).1
  · rw [(hm.perform (.store a b)).1]
    simp [CellMap.perform]
  · rw [← hsize] at ha ⊢
    exact ⟨write_of_size_le ha b, perform_store_of_le ha b⟩
  · rw [← hsize, ← dump_eq_Ico]
    rfl
  · rw [dump_eq_Ico, List.map_eq_nil_iff, List.Ico.eq_empty_iff, hsize]
  · intro h
    rw [← hsize] at h
    exact dump?_eq h start count

/-- two writes to a cell and one outside, after another one that was cleared away -/
def rewritten : List MemoryOp :=
  [.write 1 7, .clear, .store 2 9, .write 2 5, .store 3 1, .dump 0 3]

/-- windows that end beyond 64 bits: one begins inside, and one at the last address of 64 bits -/
theorem refines_cellMap_rewritten :
    let m := stateAfter perform (zeroed 3) rewritten
    3 < Text.bound64 ∧
    repliesOf perform (zeroed 3) rewritten = repliesOf CellMap.perform (CellMap.zero 3) rewritten ∧
    m.read 2 = 5 ∧ m.read 1 = 0 ∧ m.perform (.store 3 8) = (.refused ⟨3, 3⟩, m) ∧
    m.dump? 1 (Text.bound64 - 1) = some [(1, 0), (2, 5)] ∧
    m.dump? (Text.bound64 - 1) (Text.bound64 - 1) = some [] := by
  intro m
  obtain ⟨⟨hreplies, -⟩, hread, hcells, hwindow⟩ := refines_cellMap 3 rewritten
  have h : 3 < Text.bound64 := by decide
  obtain ⟨-, -, hinside⟩ := hwindow 1 (Text.bound64 - 1)
  obtain ⟨-, hempty, hlast⟩ := hwindow (Text.bound64 - 1) (Text.bound64 - 1)
  refine ⟨h, hreplies, (hread 2).2.trans (by decide), (hread 1).2.trans (by decide),
    ((hcells 3 8).2.2 (by decide)).2, ?_, ?_⟩
  · rw [hinside h]
    decide
  · rw [hlast h, hempty.2 (by decide)]

end Memory

end ByteMachine
