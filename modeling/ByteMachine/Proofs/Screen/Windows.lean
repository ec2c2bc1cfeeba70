/-
What the panels of memory and trace show.

The memory panel shows rows of eight cells, from the row on that was scrolled to, as many as it has lines between its
borders or as there are left. Scrolling goes only to rows that are there, and no operation changes the size of memory,
so there is always a row to show. The trace panel is not scrolled: it shows the newest entries, each with its step, its
statement in a column of eighteen characters and its result.

An address fits into two digits, because there are at most 256 cells. That is the only place where the configuration
comes in: a panel of a greater memory would begin to count again.

Contents:
- `Reachable`: the steppers that can be had;
- `Viewing`: the invariant;
- `ShowsCell`, `ShowsRow`, `Displays`: what the memory panel says;
- `entryRow`, `ShowsEntry`: what the trace panel says.

Main statements:
- `Reachable.viewing`: every reachable stepper keeps the invariant;
- `showsRow_memoryLine`, `showsEntry_traceText`: a row shows its cells, or its entry;
- `memoryRow_scrolledUp`, `memoryRow_scrolledDown`, `memoryRow_scrolledThrough`: where scrolling leads;
- `panels_show_windows`: the rows of both panels.
-/
import Mathlib.Tactic
import ByteMachine.Proofs.Screen.Marking
import ByteMachine.Proofs.Stepper.Pacing
import ByteMachine.Proofs.Text.Numerals
import ByteMachine.Stepper.Key

namespace ByteMachine.Stepper

/-! ## Steppers that can be reached -/

/-- steppers around a machine that has a valid configuration or that a setup hands over, and which anything may have
been done to. Between the operations of the stepper the machine inside of it may be worked on directly. -/
inductive Reachable : Stepper → Prop
  | start {c : Config} {m : Machine} (h : Machine.withConfig c = .ok m) (before : List Op) (interval : ℕ) :
      Reachable { ofMachine (m.performAll before) with clock := { interval } }
  | prepared {setup : Setup} {d : Directory} {p : Prepared} (h : setup.prepare d = .ok p) (before : List Op)
      (interval : ℕ) : Reachable { ofMachine (p.machine.performAll before) with clock := { interval } }
  | perform {s : Stepper} (h : Reachable s) (op : StepperOp) : Reachable (s.perform op)
  | press {s : Stepper} (h : Reachable s) (now : ℕ) (key : Key) : Reachable (s.press now key)
  | inside {s : Stepper} (h : Reachable s) (op : Op) : Reachable { s with machine := (s.machine.perform op).2 }

/-- what a stepper does to its machine is made of operations of the machine -/
theorem exists_machine_perform (s : Stepper) (op : StepperOp) :
    ∃ ops : List Op, (s.perform op).machine = s.machine.performAll ops := by
  cases op with
  | step => exact ⟨[.pause, .step], rfl⟩
  | run now => exact ⟨[.run], s.machine_run now⟩
  | pause => exact ⟨[.pause], rfl⟩
  | tick now =>
    cases hd : s.clock.isDue now with
    | true =>
      refine ⟨[.tick], ?_⟩
      show (s.tick now).machine = s.machine.tick.2
      rw [machine_tick, if_pos hd]
    | false =>
      refine ⟨[], ?_⟩
      show (s.tick now).machine = s.machine
      rw [machine_tick, hd, if_neg Bool.false_ne_true]
  | reset => exact ⟨[.reset], rfl⟩
  | scroll down => exact ⟨[], s.machine_scroll down⟩

/-- a key does one of the operations, or only ends the session, or nothing -/
theorem press_cases (s : Stepper) (now : ℕ) (key : Key) :
    (∃ op, s.press now key = s.perform op) ∨ s.press now key = { s with quit := true } ∨ s.press now key = s := by
  unfold press
  split
  · exact .inr (.inl rfl)
  · exact .inl ⟨.step, rfl⟩
  · exact .inl ⟨.run now, rfl⟩
  · exact .inl ⟨.pause, rfl⟩
  · split_ifs
    · exact .inl ⟨.pause, rfl⟩
    · exact .inl ⟨.run now, rfl⟩
  · exact .inl ⟨.reset, rfl⟩
  · exact .inl ⟨.scroll false, rfl⟩
  · exact .inl ⟨.scroll true, rfl⟩
  · exact .inr (.inr rfl)

/-- only scrolling moves the view of memory -/
theorem memoryRow_perform (s : Stepper) (op : StepperOp) :
    (∃ down, op = .scroll down) ∨ (s.perform op).memoryRow = s.memoryRow := by
  cases op with
  | step | pause | reset => exact .inr rfl
  | run now =>
    refine .inr ?_
    show (s.run now).memoryRow = s.memoryRow
    unfold Stepper.run
    dsimp only
    split_ifs
    · rfl
    · rfl
  | tick now =>
    refine .inr ?_
    show (s.tick now).memoryRow = s.memoryRow
    unfold Stepper.tick
    split_ifs
    · rfl
    · rfl
  | scroll down => exact .inl ⟨down, rfl⟩

/-- the invariant: the machine fits a valid configuration, and the view of its memory begins with a cell -/
structure Viewing (c : Config) (s : Stepper) : Prop where
  valid : c.Valid
  fitting : Machine.Fitting c s.machine
  row : 8 * s.memoryRow < s.machine.state.memory.size

namespace Viewing

variable {c : Config} {s : Stepper}

theorem size_le (h : Viewing c s) : s.machine.state.memory.size ≤ 256 :=
  h.fitting.fits.memory.le.trans h.valid.memory.2

/-- the machine may be any other that fits -/
theorem of_fitting (h : Viewing c s) {m : Machine} (hm : Machine.Fitting c m) : Viewing c { s with machine := m } where
  valid := h.valid
  fitting := hm
  row := by
    have hbefore : s.machine.state.memory.size = c.memorySize := h.fitting.fits.memory
    have hafter : m.state.memory.size = c.memorySize := hm.fits.memory
    show 8 * s.memoryRow < m.state.memory.size
    rw [hafter, ← hbefore]
    exact h.row

/-- **One operation keeps the view on a cell.** -/
theorem perform (h : Viewing c s) (op : StepperOp) : Viewing c (s.perform op) := by
  obtain ⟨ops, hops⟩ := s.exists_machine_perform op
  have hfitting : Machine.Fitting c (s.perform op).machine := by
    rw [hops]
    exact (Machine.fitting_kept c).performAll (fun _ _ => trivial) h.fitting
  refine ⟨h.valid, hfitting, ?_⟩
  have hsize : (s.perform op).machine.state.memory.size = s.machine.state.memory.size :=
    hfitting.fits.memory.trans h.fitting.fits.memory.symm
  rw [hsize]
  rcases s.memoryRow_perform op with ⟨down, rfl⟩ | hrow
  · exact row_scroll h.row down
  · rw [hrow]
    exact h.row

end Viewing

/-- a stepper begins at the first row -/
theorem viewing_ofMachine {c : Config} {m : Machine} (hv : c.Valid) (hf : Machine.Fitting c m) (interval : ℕ) :
    Viewing c { ofMachine m with clock := { interval } } :=
  ⟨hv, hf, memorySize_pos hv hf⟩

/-- **Every reachable stepper keeps the view on a cell.** -/
theorem Reachable.viewing {s : Stepper} (h : Reachable s) : ∃ c, Viewing c s := by
  induction h with
  | @start c m h before interval =>
    obtain ⟨hv, -⟩ := (Machine.withConfig_eq_ok_iff ..).1 h
    exact ⟨c, viewing_ofMachine hv (Machine.fitting_performAll h before) interval⟩
  | prepared h before interval =>
    obtain ⟨c, hv, hf, -⟩ := Setup.prepared_fitting h
    exact ⟨c, viewing_ofMachine hv ((Machine.fitting_kept c).performAll (fun _ _ => trivial) hf) interval⟩
  | perform _ op ih =>
    obtain ⟨c, hview⟩ := ih
    exact ⟨c, hview.perform op⟩
  | @press s _ now key ih =>
    obtain ⟨c, hview⟩ := ih
    refine ⟨c, ?_⟩
    rcases s.press_cases now key with ⟨op, hop⟩ | hquit | hsame
    · rw [hop]
      exact hview.perform op
    · rw [hquit]
      exact { hview with }
    · rw [hsame]
      exact hview
  | inside _ op ih =>
    obtain ⟨c, hview⟩ := ih
    exact ⟨c, hview.of_fitting ((Machine.fitting_kept c).perform trivial hview.fitting)⟩

/-! ## Rows of memory -/

/-- the style of the cell that the address register names -/
def addressed : Style where
  colour := some .yellow
  bold := true

/-- the span shows the value of the cell at `address`, and that it is addressed exactly if it is -/
structure ShowsCell (s : Stepper) (address : ℕ) (span : Span) : Prop where
  value : ∃ b digits, s.machine.state.memory.cells[address]? = some b ∧ Text.IsHexPair digits b.toNat ∧
    span.text = digits ++ " "
  style : span.style = addressed ↔ s.machine.state.registers.mar.toNat = address

/-- the item is one line, which shows memory row `row`: its first address, and the cells from there on, eight of them or
as many as there are left -/
def ShowsRow (s : Stepper) (row : ℕ) (item : Item) : Prop :=
  ∃ label cells digits, item.lines = [label :: cells] ∧ Text.IsHexPair digits (8 * row) ∧
    label.text = digits ++ ": " ∧ label.style ≠ addressed ∧
    List.Forall₂ s.ShowsCell (List.range' (8 * row) (min 8 (s.machine.state.memory.size - 8 * row))) cells

theorem cellStyle_eq_addressed_iff (mar address : ℕ) (b : UInt8) :
    cellStyle mar address b = addressed ↔ mar = address := by
  unfold cellStyle
  split_ifs with ha hb
  · exact iff_of_true rfl ha.symm
  · refine iff_of_false (by decide) ?_
    exact fun h => ha h.symm
  · refine iff_of_false (by decide) ?_
    exact fun h => ha h.symm

/-- the label of a row is its first address, while that is a byte -/
theorem isHexPair_label {row : ℕ} (h : 8 * row < 256) :
    Text.IsHexPair (Text.hexByte (UInt8.ofNat (8 * row))) (8 * row) := by
  have hpair := Text.isHexPair_hexByte (UInt8.ofNat (8 * row))
  rwa [UInt8.toNat_ofNat_of_lt' h] at hpair

/-- **A row shows its cells**, if it begins with one. -/
theorem showsRow_memoryLine {s : Stepper} {row : ℕ} (hrow : 8 * row < s.machine.state.memory.size)
    (hsize : s.machine.state.memory.size ≤ 256) :
    s.ShowsRow row (.ofLine (memoryLine s.machine.state.memory s.machine.state.registers.mar.toNat row)) := by
  have hlabel : Style.of .darkGray ≠ addressed := by decide
  refine ⟨_, _, _, rfl, isHexPair_label (hrow.trans_le hsize), rfl, hlabel, ?_⟩
  rw [Memory.dump_eq, List.map_map, List.forall₂_map_right_iff, List.forall₂_same]
  intro address ha
  rw [List.mem_range'_1] at ha
  have hcell : address < s.machine.state.memory.size := by omega
  refine ⟨⟨_, _, Memory.getElem?_cells hcell, Text.isHexPair_hexByte _, rfl⟩, ?_⟩
  exact cellStyle_eq_addressed_iff ..

/-- the rows that are shown are numbered from the one that was scrolled to -/
theorem visibleRows_eq (s : Stepper) (height : ℕ) :
    s.visibleRows height =
      List.range' s.memoryRow (min (s.memoryRow + (height - 2)) s.memoryRows - s.memoryRow) := by
  have hcount : min (height - 2) (s.memoryRows - s.memoryRow) =
      min (s.memoryRow + (height - 2)) s.memoryRows - s.memoryRow := by omega
  rw [visibleRows, innerHeight, List.range_eq_range', List.drop_range', List.range'_eq_map_range, ← List.map_take,
    List.take_range, hcount, Nat.mul_one, Nat.zero_add, ← List.range'_eq_map_range]

/-- **The memory panel has the rows from the one that was scrolled to**, as many as fit or as there are. -/
theorem Viewing.forall₂_memoryItems {c : Config} {s : Stepper} (h : Viewing c s) (height : ℕ) :
    List.Forall₂ s.ShowsRow
      (List.range' s.memoryRow (min (s.memoryRow + (height - 2)) s.memoryRows - s.memoryRow))
      (s.memoryItems height) := by
  rw [memoryItems, visibleRows_eq, List.forall₂_map_right_iff, List.forall₂_same]
  intro row hrow
  rw [List.mem_range'_1, memoryRows] at hrow
  exact showsRow_memoryLine (by omega) h.size_le

theorem length_memoryItems (s : Stepper) (height : ℕ) :
    (s.memoryItems height).length = min (s.memoryRow + (height - 2)) s.memoryRows - s.memoryRow := by
  rw [memoryItems, List.length_map, visibleRows_eq, List.length_range']

/-- all rows that the memory panel has are shown -/
theorem fitting_memoryItems (s : Stepper) (height : ℕ) :
    fitting (height - 2) (s.memoryPanel height).items = s.memoryItems height := by
  have hone : ∀ i ∈ s.memoryItems height, i.height = 1 := by
    intro i hi
    obtain ⟨row, -, rfl⟩ := List.mem_map.1 hi
    rfl
  have hlength := s.length_memoryItems height
  rw [memoryPanel, fitting_of_height_one hone, List.take_of_length_le (by omega)]

/-! ## Scrolling -/

/-- the stepper after scrolling this often in one direction -/
def scrolledBy (s : Stepper) (down : Bool) (k : ℕ) : Stepper :=
  s.performAll (List.replicate k (.scroll down))

theorem scrolledBy_succ (s : Stepper) (down : Bool) (k : ℕ) :
    s.scrolledBy down (k + 1) = (s.scroll down).scrolledBy down k := rfl

/-- scrolling leaves the machine alone -/
theorem machine_scrolledBy (s : Stepper) (down : Bool) (k : ℕ) : (s.scrolledBy down k).machine = s.machine := by
  induction k generalizing s with
  | zero => rfl
  | succ k ih => rw [scrolledBy_succ, ih, machine_scroll]

theorem memoryRows_scroll (s : Stepper) (down : Bool) : (s.scroll down).memoryRows = s.memoryRows := by
  rw [memoryRows, memoryRows, machine_scroll]

/-- **Scrolling down leads to the last row**, and no further. -/
theorem memoryRow_scrolledDown {s : Stepper} (h : s.memoryRow < s.memoryRows) (k : ℕ) :
    (s.scrolledBy true k).memoryRow = min (s.memoryRow + k) (s.memoryRows - 1) := by
  induction k generalizing s with
  | zero =>
    show s.memoryRow = _
    omega
  | succ k ih =>
    have hstep : (s.scroll true).memoryRow = min (s.memoryRow + 1) (s.memoryRows - 1) := by
      rw [Stepper.scroll, if_pos rfl]
      split_ifs with hnext
      · show s.memoryRow + 1 = _
        omega
      · omega
    rw [scrolledBy_succ, ih (by rw [hstep, memoryRows_scroll]; omega), hstep, memoryRows_scroll]
    omega

/-- **Scrolling up leads to the first row**, and no further. -/
theorem memoryRow_scrolledUp (s : Stepper) (k : ℕ) : (s.scrolledBy false k).memoryRow = s.memoryRow - k := by
  induction k generalizing s with
  | zero => rfl
  | succ k ih =>
    rw [scrolledBy_succ, ih]
    show s.memoryRow - 1 - k = _
    omega

/-- from the first row on, scrolling down leads through every row to the last one -/
theorem memoryRow_scrolledThrough {s : Stepper} (h : 0 < s.memoryRows) (k : ℕ) :
    ((s.scrolledBy false s.memoryRow).scrolledBy true k).memoryRow = min k (s.memoryRows - 1) := by
  have htop : (s.scrolledBy false s.memoryRow).memoryRow = 0 := by rw [memoryRow_scrolledUp, Nat.sub_self]
  have hrows : (s.scrolledBy false s.memoryRow).memoryRows = s.memoryRows := by
    rw [memoryRows, memoryRows, machine_scrolledBy]
  rw [memoryRow_scrolledDown (by rwa [htop, hrows]), htop, hrows, Nat.zero_add]

/-- scrolling keeps the invariant, on any row that is there -/
theorem Viewing.scrolledThrough {c : Config} {s : Stepper} (h : Viewing c s) {k : ℕ} (hk : k < s.memoryRows) :
    let t := (s.scrolledBy false s.memoryRow).scrolledBy true k
    Viewing c t ∧ t.memoryRow = k ∧ t.machine = s.machine := by
  intro t
  have hmachine : t.machine = s.machine := by rw [machine_scrolledBy, machine_scrolledBy]
  have hrow : t.memoryRow = k := by
    rw [memoryRow_scrolledThrough (by omega)]
    omega
  refine ⟨⟨h.valid, hmachine ▸ h.fitting, ?_⟩, hrow, hmachine⟩
  rw [hrow, hmachine]
  rw [memoryRows] at hk
  omega

/-! ## Cells in view -/

/-- the memory panel has a row with the cell at this address -/
def Displays (s : Stepper) (height address : ℕ) : Prop :=
  ∃ item ∈ s.memoryItems height, s.ShowsRow (address / 8) item

/-- a panel with a line between its borders shows the cells of the row that was scrolled to -/
theorem Viewing.displays {c : Config} {s : Stepper} (h : Viewing c s) {height address : ℕ} (hheight : 3 ≤ height)
    (hrow : address / 8 = s.memoryRow) : s.Displays height address := by
  have hall := h.forall₂_memoryItems height
  have hcell := h.row
  obtain ⟨n, hn⟩ : ∃ n, min (s.memoryRow + (height - 2)) s.memoryRows - s.memoryRow = n + 1 :=
    Nat.exists_eq_add_one.2 (by rw [memoryRows]; omega)
  rw [hn, List.range'_succ] at hall
  obtain ⟨item, items, hitem, -, hitems⟩ := List.forall₂_cons_left_iff.1 hall
  refine ⟨item, ?_, hrow ▸ hitem⟩
  rw [hitems]
  exact List.mem_cons_self

/-! ## Rows of the trace -/

/-- the row of a trace entry: its step with two digits at least, its statement in eighteen columns at least, its
result -/
def entryRow (e : TraceEntry) : String :=
  (if e.step < 10 then "0" else "") ++ Text.numeral e.step ++ "  " ++
    e.operation ++ String.ofList (List.replicate (18 - e.operation.length) ' ') ++ " " ++ e.result

/-- the item shows the entry: its row, which line feeds in a statement that was imported may cut into several lines -/
structure ShowsEntry (e : TraceEntry) (item : Item) : Prop where
  lines : item.lines = (Text.lines (entryRow e).toList).map fun l => [⟨String.ofList l, .plain⟩]
  style : item.style = .plain

theorem toList_entryRow_ne_nil (e : TraceEntry) : (entryRow e).toList ≠ [] := by
  simp [entryRow]

theorem traceText_eq_entryRow (e : TraceEntry) : traceText e = entryRow e := by
  refine String.toList_inj.1 ?_
  simp [traceText, entryRow, Text.padded_two, Text.padRight, String.length_toList]

/-- **A row shows its entry.** -/
theorem showsEntry_traceText (e : TraceEntry) : ShowsEntry e { lines := plainLines (traceText e) } where
  lines := by
    rw [traceText_eq_entryRow]
    exact plainLines_of_ne_nil (toList_entryRow_ne_nil e)
  style := rfl

/-- without line feeds an entry is shown in one line -/
theorem ShowsEntry.eq_ofLine {e : TraceEntry} {item : Item} (h : ShowsEntry e item)
    (hn : '\n' ∉ (entryRow e).toList) : item = .ofLine [⟨entryRow e, .plain⟩] := by
  obtain ⟨lines, style⟩ := item
  obtain ⟨rfl, rfl⟩ := h
  rw [Text.lines_of_not_mem (toList_entryRow_ne_nil e) hn, List.map_singleton, String.ofList_toList]
  rfl

/-- **The trace panel has the newest entries**, in order, as many as there are lines for. -/
theorem exists_newest (s : Stepper) (height : ℕ) :
    ∃ older newest, s.machine.state.trace = older ++ newest ∧
      newest.length = min (height - 2) s.machine.state.trace.length ∧
      List.Forall₂ ShowsEntry newest (s.tracePanel height).items := by
  have hsplit := List.take_append_drop (s.machine.state.trace.length - (height - 2)) s.machine.state.trace
  refine ⟨_, s.visibleTrace height, hsplit.symm, ?_, ?_⟩
  · have hlength : (s.visibleTrace height).length =
        s.machine.state.trace.length - (s.machine.state.trace.length - (height - 2)) := List.length_drop
    omega
  · show List.Forall₂ ShowsEntry (s.visibleTrace height) (s.traceItems height)
    rw [traceItems, List.forall₂_map_right_iff, List.forall₂_same]
    exact fun e _ => showsEntry_traceText e

/-! ## Both panels -/

/-- **What the panels of memory and trace show.** Take any stepper that can be reached and panels of any height. With
`rows` for the number of rows of eight cells that there are:
1. the memory panel has the rows from the one that was scrolled to, as many as it has lines between its borders or as
   there are left, each with its address and its cells, of which the one that the address register names stands out;
2. all of them fit into it;
3. if it has a line between its borders, there is a row in it;
4. then scrolling up to the first row, and down from there, brings every cell into view, and it ends at the last row;
5. the trace panel has the newest entries, as many as it has lines between its borders or as there are, the newest
   last, each with its step, its statement and its result. -/
theorem panels_show_windows {s : Stepper} (h : Reachable s) (height : ℕ) :
    let rows := (s.machine.state.memory.size + 7) / 8
    let top := s.scrolledBy false s.memoryRow
    List.Forall₂ s.ShowsRow (List.range' s.memoryRow (min (s.memoryRow + (height - 2)) rows - s.memoryRow))
      (s.memoryPanel height).items ∧
    fitting (height - 2) (s.memoryPanel height).items = (s.memoryPanel height).items ∧
    (3 ≤ height → (s.memoryPanel height).items ≠ []) ∧
    ((∀ k, (top.scrolledBy true k).memoryRow = min k (rows - 1)) ∧
      (3 ≤ height → ∀ address < s.machine.state.memory.size, ∃ k < rows,
        (top.scrolledBy true k).machine = s.machine ∧ (top.scrolledBy true k).Displays height address)) ∧
    ∃ older newest, s.machine.state.trace = older ++ newest ∧
      newest.length = min (height - 2) s.machine.state.trace.length ∧
      List.Forall₂ ShowsEntry newest (s.tracePanel height).items := by
  intro rows top
  obtain ⟨c, hview⟩ := h.viewing
  have hfirst := hview.row
  refine ⟨hview.forall₂_memoryItems height, s.fitting_memoryItems height, ?_, ⟨?_, ?_⟩, s.exists_newest height⟩
  · intro hheight
    obtain ⟨item, hitem, -⟩ :=
      hview.displays hheight (show 8 * s.memoryRow / 8 = s.memoryRow from Nat.mul_div_cancel_left _ (by decide))
    exact List.ne_nil_of_mem hitem
  · exact memoryRow_scrolledThrough (by rw [memoryRows]; omega)
  · intro hheight address haddress
    have hk : address / 8 < s.memoryRows := by
      rw [memoryRows]
      omega
    obtain ⟨ht, hrow, hmachine⟩ := hview.scrolledThrough hk
    exact ⟨address / 8, hk, hmachine, ht.displays hheight hrow.symm⟩

/-- three rows of memory, seen from the second one on, after two steps -/
def secondRow : Stepper :=
  ({ ofMachine ((Machine.fresh threeRows).performAll [.load ["PC ← PC + 1", "MAR ← PC"], .step, .step]) with
      clock := { interval := 5 } } : Stepper).perform (.scroll true)

theorem panels_show_windows_secondRow :
    Reachable secondRow ∧
      (∃ second last, (secondRow.memoryPanel 9).items = [second, last] ∧ secondRow.ShowsRow 1 second ∧
        secondRow.ShowsRow 2 last) ∧
      (secondRow.tracePanel 3).items = [.ofLine [⟨"01  MAR ← PC           MAR = 1", .plain⟩]] := by
  have hstart : Machine.withConfig threeRows = .ok (.fresh threeRows) := rfl
  have h : Reachable secondRow := (Reachable.start hstart _ 5).perform (.scroll true)
  refine ⟨h, ?_, ?_⟩
  · obtain ⟨hrows, -⟩ := panels_show_windows h 9
    have hwindow : List.range' secondRow.memoryRow
        (min (secondRow.memoryRow + (9 - 2)) ((secondRow.machine.state.memory.size + 7) / 8) - secondRow.memoryRow) =
        [1, 2] := by decide
    rw [hwindow] at hrows
    obtain ⟨second, rest, hsecond, hrest, hitems⟩ := List.forall₂_cons_left_iff.1 hrows
    obtain ⟨last, none, hlast, hnone, rfl⟩ := List.forall₂_cons_left_iff.1 hrest
    obtain rfl := List.forall₂_nil_left_iff.1 hnone
    exact ⟨second, last, hitems, hsecond, hlast⟩
  · obtain ⟨-, -, -, -, older, newest, htrace, hlength, hentries⟩ := panels_show_windows h 3
    have hentry : secondRow.machine.state.trace = [⟨0, "PC ← PC + 1", "PC = 1"⟩] ++ [⟨1, "MAR ← PC", "MAR = 1"⟩] := by
      decide
    rw [hentry] at htrace hlength
    obtain ⟨-, rfl⟩ := List.append_inj' htrace hlength.symm
    obtain ⟨item, none, hitem, hnone, hitems⟩ := List.forall₂_cons_left_iff.1 hentries
    obtain rfl := List.forall₂_nil_left_iff.1 hnone
    rw [hitems, hitem.eq_ofLine (by decide)]
    decide

end ByteMachine.Stepper
