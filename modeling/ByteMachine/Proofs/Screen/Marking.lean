/-
Where the next statement is marked.

The program panel shows the listing from its first line on, as many lines as it has rows between its borders. It does
not follow the pointer, as the memory panel follows what was scrolled to and the trace panel the newest entry. So the
line that is marked is in the panel exactly if its number is below the number of these rows. A screen has fewer than
65536 rows, so the number of a line that is shown has five digits at most, and a panel of twenty columns has room for
it.

Contents:
- `shown`: a line cut or filled up to a width;
- `fitting_of_height_one`: items of one line each;
- `Panel.getElem?_render`, `Panel.exists_innerRow`: the rows of a panel between its borders;
- `Stepper.chars_innerRow`: a row of the program panel;
- `Marked`, `Announces`: a row with the marker, and one with the marker and a number.

Main statements:
- `Stepper.announces_row`: a panel that is high enough announces the next statement;
- `Stepper.index_of_marked`: no other row is marked;
- `Stepper.next_statement_shown_iff`: so the next statement is shown exactly if the panel is high enough;
- `Stepper.next_statement_out_of_sight`: a panel that is not.
-/
import Mathlib.Tactic
import ByteMachine.Proofs.Program.Reassembling
import ByteMachine.Screen

namespace ByteMachine

/-! ## Rows of characters -/

/-- the line cut to the width, or filled up to it -/
def shown (width : ℕ) (line : List Char) : List Char :=
  line.take width ++ List.replicate (width - line.length) ' '

theorem chars_fitWidth (width : ℕ) (style : Style) (cells : List Cell) :
    (fitWidth width ⟨' ', style⟩ cells).map Cell.char = shown width (cells.map Cell.char) := by
  simp [fitWidth, shown]

/-- what a line begins with is shown, if the width allows -/
theorem isPrefix_shown {width : ℕ} {start line : List Char} (h : start <+: line) (hwidth : start.length ≤ width) :
    start <+: shown width line := by
  have htake : start <+: line.take width := List.prefix_take_iff.2 ⟨h, hwidth⟩
  exact htake.trans (List.prefix_append _ _)

/-- a line that is shown with the marker begins with it -/
theorem head?_of_isPrefix_shown {width : ℕ} {line : List Char} (h : ['▶'] <+: shown width line ++ ['│']) :
    line.head? = some '▶' := by
  unfold shown at h
  cases width with
  | zero => simp at h
  | succ width =>
    cases line with
    | nil => simp [List.replicate_succ] at h
    | cons c cs =>
      rw [List.take_succ_cons, List.cons_append, List.cons_append, List.cons_prefix_cons] at h
      exact congrArg some h.1.symm

/-! ## Items of one line -/

theorem fitting_of_height_one {items : List Item} (h : ∀ i ∈ items, i.height = 1) (height : ℕ) :
    fitting height items = items.take height := by
  induction items generalizing height with
  | nil => simp [fitting]
  | cons i is ih =>
    have hi : i.height = 1 := h i List.mem_cons_self
    have his : ∀ j ∈ is, j.height = 1 := fun j hj => h j (List.mem_cons_of_mem i hj)
    cases height with
    | zero => simp [fitting, hi]
    | succ height =>
      rw [fitting, hi, if_pos (Nat.le_add_left 1 height), Nat.add_sub_cancel, ih his, List.take_succ_cons]

theorem plainLines_of_ne_nil {text : String} (hne : text.toList ≠ []) :
    plainLines text = (Text.lines text.toList).map fun l => [⟨String.ofList l, .plain⟩] := by
  unfold plainLines
  split
  · next hnil => exact absurd hnil (Text.lines_ne_nil hne)
  · rfl

/-- a text without line feed is one line -/
theorem plainLines_of_not_mem {text : String} (hne : text.toList ≠ []) (hn : '\n' ∉ text.toList) :
    plainLines text = [[⟨text, .plain⟩]] := by
  rw [plainLines_of_ne_nil hne, Text.lines_of_not_mem hne hn, List.map_singleton, String.ofList_toList]

namespace Panel

/-- a row between the borders -/
def framed (p : Panel) (inner : List Cell) : List Cell :=
  ⟨'│', p.borderStyle⟩ :: inner ++ [⟨'│', p.borderStyle⟩]

theorem getElem?_render {p : Panel} {width height i : ℕ} {inner : List Cell}
    (h : (p.innerRows (width - 2) (height - 2))[i]? = some inner) :
    (p.render width height)[i + 1]? = some (p.framed inner) := by
  have hi : i < (p.innerRows (width - 2) (height - 2)).length := (List.getElem?_eq_some_iff.1 h).1
  unfold render
  rw [List.cons_append, List.getElem?_cons_succ, List.getElem?_append_left (by simpa using hi), List.getElem?_map, h]
  rfl

/-- only such rows begin with an upright line -/
theorem exists_innerRow {p : Panel} {width height i : ℕ} {row : List Cell}
    (h : (p.render width height)[i]? = some row) (hrow : (row.map Cell.char).head? = some '│') :
    ∃ j inner, i = j + 1 ∧ (p.innerRows (width - 2) (height - 2))[j]? = some inner ∧ row = p.framed inner := by
  unfold render at h
  cases i with
  | zero =>
    obtain rfl := Option.some.inj h
    exact absurd hrow (by simp)
  | succ i =>
    rw [List.cons_append, List.getElem?_cons_succ, List.getElem?_append] at h
    split_ifs at h with hi
    · rw [List.getElem?_map, Option.map_eq_some_iff] at h
      obtain ⟨inner, hinner, rfl⟩ := h
      exact ⟨i, inner, rfl, hinner, rfl⟩
    · obtain rfl := List.mem_singleton.1 (List.mem_of_getElem? h)
      exact absurd hrow (by simp)

end Panel

namespace Stepper

variable {s : Stepper}

/-! ## The rows of the program panel -/

/-- no text of the listing has a line feed in it -/
def OneLined (s : Stepper) : Prop :=
  ∀ l ∈ s.machine.listing, '\n' ∉ l.text.toList

theorem newline_not_mem_heading (l : ListingLine) : '\n' ∉ l.heading.toList := by
  have hdigits : '\n' ∉ Text.decimal l.index := fun hm => absurd (Text.isDigit_of_mem_decimal hm) (by decide)
  have hzero : '\n' ∉ (if l.index < 10 then "0" else "").toList := by split_ifs <;> decide
  have hmarker : '\n' ∉ (if l.isNext then "▶" else " ").toList := by split_ifs <;> decide
  rw [ListingLine.heading, Text.padded_two, Text.numeral]
  simp only [String.toList_append, String.toList_ofList, List.mem_append, not_or]
  exact ⟨⟨hmarker, by decide⟩, hzero, hdigits⟩

theorem plainLines_render {l : ListingLine} (h : '\n' ∉ l.text.toList) :
    plainLines l.render = [[⟨l.render, .plain⟩]] := by
  refine plainLines_of_not_mem ?_ ?_
  · simp [ListingLine.render]
  · rw [ListingLine.render, String.toList_append, String.toList_append, List.mem_append, List.mem_append]
    rintro ((hm | hm) | hm)
    · exact newline_not_mem_heading l hm
    · exact absurd hm (by decide)
    · exact h hm

theorem chars_rows_listingItem {l : ListingLine} (h : '\n' ∉ l.text.toList) (under : Style) (width : ℕ) :
    ((listingItem l).rows under width).map (List.map Cell.char) = [shown width l.render.toList] := by
  have hlines : (listingItem l).lines = [[⟨l.render, .plain⟩]] := plainLines_render h
  have hcells : ∀ style : Style, (l.render.toList.map fun c => (⟨c, style⟩ : Cell)).map Cell.char = l.render.toList :=
    fun style => (List.map_map ..).trans (List.map_id _)
  rw [Item.rows, hlines]
  simp only [List.map_cons, List.map_nil, List.flatMap_cons, List.flatMap_nil, List.append_nil, Span.cells,
    chars_fitWidth, hcells]

/-- the rows of the program panel: the listing from its first line on, and blanks where it has none -/
theorem chars_innerRows (h : s.OneLined) (width height : ℕ) :
    (s.programPanel.innerRows width height).map (List.map Cell.char) =
      (s.machine.listing.take height).map (fun l => shown width l.render.toList) ++
        List.replicate (height - s.machine.listing.length) (List.replicate width ' ') := by
  have hone : ∀ i ∈ s.programPanel.items, i.height = 1 := by
    intro i hi
    obtain ⟨l, hl, rfl⟩ := List.mem_map.1 hi
    exact congrArg List.length (plainLines_render (h l hl))
  have hitems : fitting height s.programPanel.items = (s.machine.listing.take height).map listingItem := by
    rw [fitting_of_height_one hone, programPanel, List.map_take]
  set rows := (fitting height s.programPanel.items).flatMap (Item.rows s.programPanel.baseStyle width) with hrows
  have hchars : rows.map (List.map Cell.char) =
      (s.machine.listing.take height).map fun l => shown width l.render.toList := by
    rw [hrows, hitems, List.map_flatMap, List.flatMap_map, List.map_eq_flatMap]
    refine List.flatMap_congr fun l hl => ?_
    exact chars_rows_listingItem (h l (List.mem_of_mem_take hl)) _ _
  have hlength : rows.length = min height s.machine.listing.length := by
    have hl := congrArg List.length hchars
    rwa [List.length_map, List.length_map, List.length_take] at hl
  rw [Panel.innerRows, ← hrows, List.take_of_length_le (by omega), List.map_append, hchars, List.map_replicate,
    List.map_replicate]
  congr 2
  omega

/-- row `j` shows line `j` of the listing, or is blank -/
theorem chars_innerRow (h : s.OneLined) (width : ℕ) {height j : ℕ} (hj : j < height) :
    ((s.programPanel.innerRows width height)[j]?).map (List.map Cell.char) =
      some (shown width ((s.machine.listing[j]?).elim [] fun l => l.render.toList)) := by
  rw [← List.getElem?_map, chars_innerRows h, List.getElem?_append, List.length_map, List.length_take]
  rcases Nat.lt_or_ge j s.machine.listing.length with hlt | hle
  · rw [if_pos (by omega), List.getElem?_map, List.getElem?_take_of_lt hj, List.getElem?_eq_getElem hlt]
    rfl
  · rw [if_neg (by omega), List.getElem?_replicate, if_pos (by omega), List.getElem?_eq_none hle]
    simp [shown]

/-! ## The marked row -/

/-- a row with the marker at its beginning, inside the border -/
def Marked (row : List Cell) : Prop :=
  ['│', '▶'] <+: row.map Cell.char

/-- a row with the marker and this number, which has at least two digits, at its beginning -/
def Announces (n : ℕ) (row : List Cell) : Prop :=
  '│' :: ("▶ " ++ Text.padded 2 n ++ ":").toList <+: row.map Cell.char

theorem Announces.marked {n : ℕ} {row : List Cell} (h : Announces n row) : Marked row := by
  refine List.IsPrefix.trans ?_ h
  simp

theorem announces_framed {n : ℕ} {p : Panel} {inner : List Cell}
    (h : ("▶ " ++ Text.padded 2 n ++ ":").toList <+: inner.map Cell.char) : Announces n (p.framed inner) := by
  rw [Announces, Panel.framed, List.map_append, List.map_cons, List.cons_append, List.cons_prefix_cons]
  exact ⟨rfl, h.trans (List.prefix_append _ _)⟩

theorem marked_framed_iff {p : Panel} {inner : List Cell} :
    Marked (p.framed inner) ↔ ['▶'] <+: inner.map Cell.char ++ ['│'] := by
  rw [Marked, Panel.framed, List.map_append, List.map_cons, List.cons_append, List.cons_prefix_cons]
  exact and_iff_right rfl

/-- numbers below 65536 have five digits at most -/
theorem length_padded_two_le {n : ℕ} (h : n < 65536) : (Text.padded 2 n).toList.length ≤ 5 := by
  have hdigits : (Text.decimal n).length ≤ 5 := Nat.toDigits_length 10 n 5 (by decide) (h.trans (by decide))
  rw [Text.padded, String.toList_ofList, Text.padLeft, List.length_append, List.length_replicate]
  omega

theorem getElem?_listing (s : Stepper) (i : ℕ) :
    s.machine.listing[i]? = (s.machine.program.statement? i).map fun st =>
      ⟨i, st.canonical, i == s.machine.state.currentStep, st.op.isUnknown⟩ := by
  simp only [Machine.listing, Program.listing, List.getElem?_map, List.getElem?_zipIdx, Program.statement?,
    Option.map_map, Nat.zero_add]
  rfl

/-- a line of the listing begins with the marker exactly if it is the next one -/
theorem head?_render_eq_marker_iff (l : ListingLine) : l.render.toList.head? = some '▶' ↔ l.isNext = true := by
  unfold ListingLine.render ListingLine.heading
  cases l.isNext with
  | false => simp
  | true => simp

/-- **A panel that is high enough announces the next statement.** -/
theorem announces_row (htexts : s.OneLined) (hstep : s.machine.state.currentStep < s.machine.program.length)
    {width height : ℕ} (hwidth : 20 ≤ width) (hscreen : height < 65536)
    (h : s.machine.state.currentStep + 2 < height) :
    ∃ row, (s.programPanel.render width height)[s.machine.state.currentStep + 1]? = some row ∧
      Announces s.machine.state.currentStep row := by
  obtain ⟨st, hst⟩ : ∃ st, s.machine.program.statement? s.machine.state.currentStep = some st :=
    ⟨_, List.getElem?_eq_getElem hstep⟩
  have hrow := chars_innerRow htexts (width - 2) (show s.machine.state.currentStep < height - 2 by omega)
  rw [getElem?_listing, hst, Option.map_some, Option.elim_some, beq_self_eq_true] at hrow
  obtain ⟨inner, hinner, hchars⟩ := Option.map_eq_some_iff.1 hrow
  refine ⟨_, Panel.getElem?_render hinner, announces_framed ?_⟩
  rw [hchars]
  refine isPrefix_shown ?_ ?_
  · refine ⟨' ' :: st.canonical.toList, ?_⟩
    simp [ListingLine.render, ListingLine.heading]
  · have hlength := length_padded_two_le (n := s.machine.state.currentStep) (by omega)
    simp only [String.toList_append, List.length_append]
    have hmarker : "▶ ".toList.length = 2 ∧ ":".toList.length = 1 := by decide
    omega

/-- **No other row is marked.** -/
theorem index_of_marked (htexts : s.OneLined) {width height i : ℕ} {row : List Cell}
    (h : (s.programPanel.render width height)[i]? = some row) (hrow : Marked row) :
    i = s.machine.state.currentStep + 1 ∧ s.machine.state.currentStep + 2 < height := by
  have hupright : (row.map Cell.char).head? = some '│' := by
    obtain ⟨rest, hrest⟩ := hrow
    rw [← hrest]
    rfl
  obtain ⟨j, inner, rfl, hinner, rfl⟩ := Panel.exists_innerRow h hupright
  have hj : j < height - 2 := by
    have hlong := (List.getElem?_eq_some_iff.1 hinner).1
    rwa [Panel.length_innerRows] at hlong
  have hchars := chars_innerRow htexts (width - 2) hj
  rw [hinner, Option.map_some] at hchars
  have hmarked := marked_framed_iff.1 hrow
  rw [Option.some.inj hchars, getElem?_listing] at hmarked
  have hmarker := head?_of_isPrefix_shown hmarked
  cases hst : s.machine.program.statement? j with
  | none =>
    rw [hst] at hmarker
    cases hmarker
  | some st =>
    rw [hst, Option.map_some, Option.elim_some, head?_render_eq_marker_iff] at hmarker
    have hnext : j = s.machine.state.currentStep := beq_iff_eq.1 hmarker
    omega

/-- **Where the next statement is shown.** Let the pointer be at a statement, and let the listing have no line feeds in
its texts. Take any panel at least twenty columns wide, of a screen whose height is a number of 16 bits.
1. Some row announces the next statement exactly if its number is below the number of rows between the borders.
2. Then it is the row that the statement has in the listing, counted from the top border.
3. If there is a row with the marker at all, it is this one. -/
theorem next_statement_shown_iff (hstep : s.machine.state.currentStep < s.machine.program.length)
    (htexts : s.OneLined) {width height : ℕ} (hwidth : 20 ≤ width) (hscreen : height < 65536) :
    let n := s.machine.state.currentStep
    let rows := s.programPanel.render width height
    ((∃ row ∈ rows, Announces n row) ↔ n + 2 < height) ∧
    (n + 2 < height → ∃ row, rows[n + 1]? = some row ∧ Announces n row) ∧
    (∀ i row, rows[i]? = some row → Marked row → i = n + 1 ∧ n + 2 < height) := by
  intro n rows
  have hannounced : n + 2 < height → ∃ row, rows[n + 1]? = some row ∧ Announces n row :=
    announces_row htexts hstep hwidth hscreen
  have hmarked : ∀ i row, rows[i]? = some row → Marked row → i = n + 1 ∧ n + 2 < height :=
    fun _ _ => index_of_marked htexts
  refine ⟨⟨?_, fun h => ?_⟩, hannounced, hmarked⟩
  · rintro ⟨row, hrow, hn⟩
    obtain ⟨i, hi⟩ := List.mem_iff_getElem?.1 hrow
    exact (hmarked i row hi hn.marked).2
  · obtain ⟨row, hrow, hn⟩ := hannounced h
    exact ⟨row, List.mem_of_getElem? hrow, hn⟩

/-- the longest preset, after eight steps -/
def wellAhead : Stepper :=
  let m := { Machine.fresh {} with program := Preset.aluOperations.program, preset := some Preset.aluOperations.name }
  (ofMachine m).performAll (List.replicate 8 .step)

theorem currentStep_wellAhead :
    wellAhead.machine.state.currentStep = 8 ∧ wellAhead.machine.program.length = 11 := by
  decide +kernel

theorem oneLined_wellAhead : wellAhead.OneLined := by
  unfold OneLined
  decide +kernel

/-- in a panel of eleven rows it is shown, right above the bottom -/
theorem next_statement_shown_wellAhead :
    wellAhead.machine.state.currentStep < wellAhead.machine.program.length ∧ wellAhead.OneLined ∧
      ∃ row, (wellAhead.programPanel.render 20 11)[9]? = some row ∧ Announces 8 row := by
  obtain ⟨hpointer, hlength⟩ := currentStep_wellAhead
  have hstep : wellAhead.machine.state.currentStep < wellAhead.machine.program.length := by
    rw [hpointer, hlength]
    decide
  obtain ⟨-, hrow, -⟩ :=
    next_statement_shown_iff hstep oneLined_wellAhead (show 20 ≤ 20 from le_rfl) (show 11 < 65536 by decide)
  rw [hpointer] at hrow
  exact ⟨hstep, oneLined_wellAhead, hrow (by decide)⟩

/-- **A next statement out of sight**: in the panel of ten rows that a screen of 80 columns and 20 rows has, no row is
marked. -/
theorem next_statement_out_of_sight :
    wellAhead.machine.state.currentStep < wellAhead.machine.program.length ∧ wellAhead.OneLined ∧
      ¬∃ row ∈ wellAhead.programPanel.render (leftWidth 80) (20 - registersHeight - statusHeight), Marked row := by
  obtain ⟨hpointer, hlength⟩ := currentStep_wellAhead
  refine ⟨by rw [hpointer, hlength]; decide, oneLined_wellAhead, ?_⟩
  rintro ⟨row, hrow, hmarked⟩
  obtain ⟨i, hi⟩ := List.mem_iff_getElem?.1 hrow
  have hlow := (index_of_marked oneLined_wellAhead hi hmarked).2
  rw [hpointer] at hlow
  exact absurd hlow (by decide)

end Stepper

end ByteMachine
