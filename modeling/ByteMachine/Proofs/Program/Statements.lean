/-
The statements of a text.

A text is cut into lines at its line feeds, and a statement is what is left of a line without its comment and the blanks
around it. What is left has a shape of its own: there is something, no blank at either end, no line feed, and nothing
that would start a comment. A text of that shape is left as it is when it stands on a line, so statements can be written
one to a line and are read back.

Contents:
- `Text.lines_intercalate`: lines that are joined are cut again;
- `Text.trim_append_blanks`, `Text.trim_blanks_append`: blanks at the ends do not count;
- `Uncommented`: nothing in it starts a comment; `stripComment_append`: where a comment is cut;
- `bare`: a line without its comment and the blanks around it;
- `IsStatement`: the shape of what is left;
- `OnLine`: a statement and the line that it is on;
- `Program.assemble_eq_ok_iff`, `Program.assemble_eq_error_iff`: when a text is a program.

Main statements:
- `mem_statementsOf_iff`: the statements of a text are what is on its lines;
- `pairwise_line_statementsOf`: their line numbers increase;
- `texts_statementsOf`: their texts, in order;
- `isStatement_of_mem`, `Program.isStatement_source_of_assemble`: every statement of a text, and of its program, has the
  shape.
-/
import Mathlib.Data.List.TakeWhile
import Mathlib.Tactic
import ByteMachine.Program.Assembly

namespace ByteMachine

/-! ## Lines -/

namespace Text

variable {cs l : List Char}

/-- a character that ends no line goes to the front of the first line -/
theorem lines_cons {c : Char} (hn : c ≠ '\n') (hr : c = '\r' → cs.head? ≠ some '\n') :
    lines (c :: cs) =
      match lines cs with
      | [] => [[c]]
      | l :: ls => (c :: l) :: ls := by
  have hcr : ∀ rest, c = '\r' → cs = '\n' :: rest → False := by
    rintro rest h rfl
    exact hr h rfl
  exact lines.eq_4 c cs hn hcr

theorem lines_ne_nil (h : cs ≠ []) : lines cs ≠ [] := by
  fun_cases lines cs with
  | case1 => exact absurd rfl h
  | case2 | case3 | case4 | case5 => exact List.cons_ne_nil _ _

theorem newline_not_mem_lines (h : l ∈ lines cs) : '\n' ∉ l := by
  fun_induction lines cs generalizing l with
  | case1 => cases h
  | case2 cs ih | case3 cs ih =>
    rcases List.mem_cons.1 h with rfl | h
    · exact List.not_mem_nil
    · exact ih h
  | case4 c cs hn _ hl ih =>
    rw [List.mem_singleton.1 h]
    simpa using Ne.symm hn
  | case5 c cs hn _ l' ls hl ih =>
    rw [hl] at ih
    rcases List.mem_cons.1 h with rfl | h
    · have hl' := ih List.mem_cons_self
      simpa using ⟨Ne.symm hn, hl'⟩
    · exact ih (List.mem_cons_of_mem l' h)

/-- a line that does not end in a carriage return, cut off at its line feed -/
theorem lines_append_newline (hn : '\n' ∉ l) (hr : l.getLast? ≠ some '\r') (rest : List Char) :
    lines (l ++ '\n' :: rest) = l :: lines rest := by
  induction l with
  | nil => rfl
  | cons c l ih =>
    have hc : c ≠ '\n' := fun h => hn (h ▸ List.mem_cons_self)
    have hl : '\n' ∉ l := fun h => hn (List.mem_cons_of_mem c h)
    cases l with
    | nil =>
      have hcr : c ≠ '\r' := fun h => hr (h ▸ rfl)
      exact lines_cons hc fun h => absurd h hcr
    | cons d l =>
      have hd : d ≠ '\n' := fun h => hl (h ▸ List.mem_cons_self)
      have hhead : c = '\r' → (d :: l ++ '\n' :: rest).head? ≠ some '\n' := fun _ h => hd (by simpa using h)
      have hlast : (d :: l).getLast? ≠ some '\r' := by rwa [List.getLast?_cons_cons] at hr
      rw [List.cons_append, lines_cons hc hhead, ih hl hlast]

/-- a text without line feed is one line, if there is any -/
theorem lines_of_not_mem (hne : l ≠ []) (hn : '\n' ∉ l) : lines l = [l] := by
  induction l with
  | nil => exact absurd rfl hne
  | cons c l ih =>
    have hc : c ≠ '\n' := fun h => hn (h ▸ List.mem_cons_self)
    have hl : '\n' ∉ l := fun h => hn (List.mem_cons_of_mem c h)
    cases l with
    | nil => exact lines_cons hc fun _ h => nomatch h
    | cons d l =>
      have hd : d ≠ '\n' := fun h => hl (h ▸ List.mem_cons_self)
      have hhead : c = '\r' → (d :: l).head? ≠ some '\n' := fun _ h => hd (by simpa using h)
      rw [lines_cons hc hhead, ih (List.cons_ne_nil d l) hl]

/-- lines that are joined are cut again -/
theorem lines_intercalate {ls : List (List Char)}
    (h : ∀ l ∈ ls, l ≠ [] ∧ '\n' ∉ l ∧ l.getLast? ≠ some '\r') : lines (['\n'].intercalate ls) = ls := by
  induction ls with
  | nil => rfl
  | cons l ls ih =>
    obtain ⟨hne, hn, hr⟩ := h l List.mem_cons_self
    have hls : ∀ l' ∈ ls, l' ≠ [] ∧ '\n' ∉ l' ∧ l'.getLast? ≠ some '\r' :=
      fun l' hl' => h l' (List.mem_cons_of_mem l hl')
    cases ls with
    | nil =>
      rw [List.intercalate_singleton]
      exact lines_of_not_mem hne hn
    | cons l' ls =>
      rw [List.intercalate_cons_cons, List.append_assoc, List.singleton_append, lines_append_newline hn hr, ih hls]

/-! ## Blanks at the ends -/

/-- trimming takes away blanks, and nothing but blanks, at both ends -/
theorem exists_eq_append_trim (cs : List Char) :
    ∃ before after, cs = before ++ trim cs ++ after ∧ (∀ b ∈ before, isBlank b = true) ∧
      ∀ b ∈ after, isBlank b = true := by
  have hstart : cs = cs.takeWhile isBlank ++ trimStart cs := (List.takeWhile_append_dropWhile ..).symm
  have hend : trimStart cs = trim cs ++ ((trimStart cs).reverse.takeWhile isBlank).reverse := by
    have h := List.takeWhile_append_dropWhile (p := isBlank) (l := (trimStart cs).reverse)
    rw [← List.reverse_inj, List.reverse_append, List.reverse_reverse] at h
    exact h.symm
  refine ⟨cs.takeWhile isBlank, ((trimStart cs).reverse.takeWhile isBlank).reverse, ?_, fun b => List.mem_takeWhile_imp,
    fun b hb => List.mem_takeWhile_imp (List.mem_reverse.1 hb)⟩
  rw [List.append_assoc, ← hend]
  exact hstart

theorem trim_isInfix (cs : List Char) : trim cs <:+: cs := by
  obtain ⟨before, after, h, -⟩ := exists_eq_append_trim cs
  exact ⟨before, after, h.symm⟩

/-- a text without blanks is trimmed -/
theorem trim_of_forall (h : ∀ c ∈ cs, isBlank c = false) : trim cs = cs := by
  have hkept : ∀ l : List Char, (∀ c ∈ l, isBlank c = false) → l.dropWhile isBlank = l :=
    fun l hl => List.dropWhile_eq_self_iff.2 fun hlen => by simpa using hl _ (List.get_mem l ⟨0, hlen⟩)
  rw [trim, trimStart, hkept cs h, trimEnd, hkept cs.reverse fun c hc => h c (List.mem_reverse.1 hc),
    List.reverse_reverse]

/-- a trimmed text does not end in a blank -/
theorem getLast?_of_trim_eq {c : Char} (h : trim cs = cs) (hc : isBlank c = true) : cs.getLast? ≠ some c := by
  intro hlast
  have hend : (trimEnd (trimStart cs)).getLast? = ((trimStart cs).reverse.dropWhile isBlank).head? := by
    rw [trimEnd, List.getLast?_reverse]
  have hhead := List.head?_dropWhile_not isBlank (trimStart cs).reverse
  rw [← hend, show trimEnd (trimStart cs) = cs from h, hlast] at hhead
  have hnot : isBlank c = false := hhead
  rw [hc] at hnot
  cases hnot

theorem trimEnd_append_blanks {bs : List Char} (h : ∀ b ∈ bs, isBlank b = true) (cs : List Char) :
    trimEnd (cs ++ bs) = trimEnd cs := by
  have hb : ∀ b ∈ bs.reverse, isBlank b = true := fun b hb => h b (List.mem_reverse.1 hb)
  rw [trimEnd, List.reverse_append, List.dropWhile_append_of_pos hb, trimEnd]

/-- blanks at the end do not count -/
theorem trim_append_blanks {bs : List Char} (h : ∀ b ∈ bs, isBlank b = true) (cs : List Char) :
    trim (cs ++ bs) = trim cs := by
  unfold trim trimStart
  rw [List.dropWhile_append]
  split_ifs with hcs
  · have hall : List.dropWhile isBlank bs = [] := List.dropWhile_eq_nil_iff.2 h
    rw [hall, List.isEmpty_iff.1 hcs]
  · exact trimEnd_append_blanks h _

/-- blanks in front do not count -/
theorem trim_blanks_append {bs : List Char} (h : ∀ b ∈ bs, isBlank b = true) (cs : List Char) :
    trim (bs ++ cs) = trim cs := by
  rw [trim, trimStart, List.dropWhile_append_of_pos h, trim, trimStart]

end Text

/-! ## Comments -/

/-- nothing in it starts a comment -/
structure Uncommented (cs : List Char) : Prop where
  semicolon : ';' ∉ cs
  hash : '#' ∉ cs
  slashes : ¬['/', '/'] <:+: cs

variable {cs : List Char}

theorem Uncommented.of_isInfix {ds : List Char} (h : Uncommented cs) (hd : ds <:+: cs) : Uncommented ds where
  semicolon hm := h.semicolon (hd.subset hm)
  hash hm := h.hash (hd.subset hm)
  slashes hs := h.slashes (hs.trans hd)

theorem stripComment_cons {c : Char} (hsemicolon : c ≠ ';') (hhash : c ≠ '#') (hslash : c = '/' → cs.head? ≠ some '/') :
    stripComment (c :: cs) = c :: stripComment cs := by
  rw [stripComment]
  · exact hsemicolon
  · exact hhash
  · rintro rest h rfl
    exact hslash h rfl

/-- nothing is cut from an uncommented text, whatever follows, unless two slashes meet -/
theorem stripComment_append (h : Uncommented cs) {rest : List Char} (hrest : rest.head? ≠ some '/') :
    stripComment (cs ++ rest) = cs ++ stripComment rest := by
  induction cs with
  | nil => rfl
  | cons c cs ih =>
    have hsemicolon : c ≠ ';' := fun hc => h.semicolon (hc ▸ List.mem_cons_self)
    have hhash : c ≠ '#' := fun hc => h.hash (hc ▸ List.mem_cons_self)
    have hcs : Uncommented cs := h.of_isInfix (List.suffix_cons c cs).isInfix
    have hslash : c = '/' → (cs ++ rest).head? ≠ some '/' := by
      rintro rfl hhead
      cases cs with
      | nil => exact hrest hhead
      | cons d cs =>
        obtain rfl : d = '/' := Option.some.inj hhead
        exact h.slashes ⟨[], cs, rfl⟩
    rw [List.cons_append, stripComment_cons hsemicolon hhash hslash, ih hcs, List.cons_append]

theorem stripComment_of_uncommented (h : Uncommented cs) : stripComment cs = cs := by
  have hcs : stripComment (cs ++ []) = cs ++ stripComment [] := stripComment_append h (by simp)
  rwa [List.append_nil, stripComment, List.append_nil] at hcs

/-- a line is cut before its first comment -/
theorem stripComment_isPrefix (cs : List Char) : stripComment cs <+: cs := by
  fun_induction stripComment cs with
  | case1 | case2 | case3 | case4 => exact List.nil_prefix
  | case5 c cs hs hh hd ih => exact (List.prefix_cons_inj c).2 ih

theorem uncommented_stripComment (cs : List Char) : Uncommented (stripComment cs) := by
  have hnil : Uncommented [] := ⟨List.not_mem_nil, List.not_mem_nil, by simp⟩
  fun_induction stripComment cs with
  | case1 | case2 | case3 | case4 => exact hnil
  | case5 c cs hsemicolon hhash hslashes ih =>
    refine ⟨?_, ?_, ?_⟩
    · simpa using ⟨Ne.symm hsemicolon, ih.semicolon⟩
    · simpa using ⟨Ne.symm hhash, ih.hash⟩
    · intro hs
      rcases List.infix_cons_iff.1 hs with hp | hi
      · -- two slashes at the front would have been cut away
        obtain ⟨hc, hslash⟩ := List.cons_prefix_cons.1 hp
        obtain ⟨rest, hrest⟩ := hslash.trans (stripComment_isPrefix cs)
        exact hslashes rest hc.symm hrest.symm
      · exact ih.slashes hi

/-! ## Statements -/

/-- a line without its comment and the blanks around it -/
def bare (line : List Char) : List Char :=
  Text.trim (stripComment line)

/-- the shape of a statement -/
structure IsStatement (cs : List Char) : Prop where
  nonempty : cs ≠ []
  trimmed : Text.trim cs = cs
  uncommented : Uncommented cs
  oneLine : '\n' ∉ cs

theorem uncommented_iff : Uncommented cs ↔ ';' ∉ cs ∧ '#' ∉ cs ∧ ¬['/', '/'] <:+: cs :=
  ⟨fun h => ⟨h.semicolon, h.hash, h.slashes⟩, fun h => ⟨h.1, h.2.1, h.2.2⟩⟩

theorem isStatement_iff : IsStatement cs ↔ cs ≠ [] ∧ Text.trim cs = cs ∧ Uncommented cs ∧ '\n' ∉ cs :=
  ⟨fun h => ⟨h.nonempty, h.trimmed, h.uncommented, h.oneLine⟩, fun h => ⟨h.1, h.2.1, h.2.2.1, h.2.2.2⟩⟩

instance : Decidable (Uncommented cs) :=
  decidable_of_iff _ uncommented_iff.symm

instance : Decidable (IsStatement cs) :=
  decidable_of_iff _ isStatement_iff.symm

-- one slash starts no comment, two do
example : IsStatement "MAR / PC".toList ∧ ¬IsStatement "MAR // PC".toList := by decide

theorem isStatement_bare {line : List Char} (hn : '\n' ∉ line) (hne : bare line ≠ []) : IsStatement (bare line) where
  nonempty := hne
  trimmed := Text.trim_trim _
  uncommented := (uncommented_stripComment line).of_isInfix (Text.trim_isInfix _)
  oneLine h := hn ((stripComment_isPrefix line).subset ((Text.trim_isInfix _).subset h))

namespace IsStatement

/-- nothing is taken away from a statement, nor from one with blanks and a comment after it -/
theorem bare_append (h : IsStatement cs) {blanks comment : List Char} (hb : ∀ b ∈ blanks, Text.isBlank b = true) :
    bare (cs ++ (blanks ++ ';' :: comment)) = cs := by
  have hblanks : Uncommented blanks := by
    refine ⟨fun hm => ?_, fun hm => ?_, fun hs => ?_⟩
    · exact absurd (hb _ hm) (by decide)
    · exact absurd (hb _ hm) (by decide)
    · exact absurd (hb '/' (hs.subset List.mem_cons_self)) (by decide)
  have hhead : (blanks ++ ';' :: comment).head? ≠ some '/' := by
    cases blanks with
    | nil => simp
    | cons b bs =>
      intro hslash
      obtain rfl : b = '/' := Option.some.inj hslash
      exact absurd (hb '/' List.mem_cons_self) (by decide)
  rw [bare, stripComment_append h.uncommented hhead, stripComment_append hblanks (by simp), stripComment,
    List.append_nil, Text.trim_append_blanks hb, h.trimmed]

theorem bare_eq (h : IsStatement cs) : bare cs = cs := by
  rw [bare, stripComment_of_uncommented h.uncommented, h.trimmed]

end IsStatement

/-- the statement is what is left of the line with its number, and that is something -/
def OnLine (source : String) (s : SourceStatement) : Prop :=
  ∃ i line, (Text.lines source.toList)[i]? = some line ∧ s.line = i + 1 ∧ s.text = String.ofList (bare line) ∧
    bare line ≠ []

/-- what a numbered line gives -/
def numbered (entry : List Char × ℕ) : Option SourceStatement :=
  if bare entry.1 = [] then none else some ⟨entry.2, String.ofList (bare entry.1)⟩

theorem statementsOf_eq (source : String) :
    statementsOf source = ((Text.lines source.toList).zipIdx 1).filterMap numbered := by
  unfold statementsOf
  congr 1
  funext ⟨line, number⟩
  unfold numbered bare
  generalize hl : Text.trim (stripComment line) = text
  cases text with
  | nil => simp [hl]
  | cons c cs => simp [hl]

theorem numbered_eq_some_iff {entry : List Char × ℕ} {s : SourceStatement} :
    numbered entry = some s ↔ bare entry.1 ≠ [] ∧ s = ⟨entry.2, String.ofList (bare entry.1)⟩ := by
  unfold numbered
  split_ifs with h
  · simp [h]
  · simp [h, eq_comm]

/-- **The statements of a text are what is on its lines.** -/
theorem mem_statementsOf_iff {source : String} {s : SourceStatement} : s ∈ statementsOf source ↔ OnLine source s := by
  rw [statementsOf_eq, List.mem_filterMap]
  constructor
  · rintro ⟨⟨line, number⟩, hm, hs⟩
    obtain ⟨hne, rfl⟩ := numbered_eq_some_iff.1 hs
    obtain ⟨hle, hget⟩ := List.mk_mem_zipIdx_iff_le_and_getElem?_sub.1 hm
    exact ⟨number - 1, line, hget, (Nat.sub_add_cancel hle).symm, rfl, hne⟩
  · rintro ⟨i, line, hget, hline, htext, hne⟩
    refine ⟨(line, i + 1), ?_, numbered_eq_some_iff.2 ⟨hne, ?_⟩⟩
    · exact List.mk_mem_zipIdx_iff_le_and_getElem?_sub.2 ⟨Nat.le_add_left 1 i, by simpa using hget⟩
    · cases s
      simp_all

theorem pairwise_zipIdx {α : Type} (l : List α) (k : ℕ) : (l.zipIdx k).Pairwise fun a b => a.2 < b.2 := by
  induction l generalizing k with
  | nil => exact List.Pairwise.nil
  | cons a l ih =>
    rw [List.zipIdx_cons, List.pairwise_cons]
    refine ⟨fun b hb => ?_, ih (k + 1)⟩
    exact (List.mk_mem_zipIdx_iff_le_and_getElem?_sub.1 (show (b.1, b.2) ∈ l.zipIdx (k + 1) from hb)).1

/-- **Line numbers increase** from one statement to the next. -/
theorem pairwise_line_statementsOf (source : String) : (statementsOf source).Pairwise fun s t => s.line < t.line := by
  rw [statementsOf_eq, List.pairwise_filterMap]
  refine (pairwise_zipIdx _ 1).imp fun {a b} hab s hs t ht => ?_
  obtain ⟨-, rfl⟩ := numbered_eq_some_iff.1 hs
  obtain ⟨-, rfl⟩ := numbered_eq_some_iff.1 ht
  exact hab

/-- the texts of the statements: what is left of each line, if that is something -/
theorem texts_statementsOf (source : String) :
    (statementsOf source).map SourceStatement.text =
      (((Text.lines source.toList).map bare).filter (· ≠ [])).map String.ofList := by
  rw [statementsOf_eq]
  generalize Text.lines source.toList = ls
  generalize 1 = k
  induction ls generalizing k with
  | nil => rfl
  | cons l ls ih =>
    by_cases hl : bare l = []
    · simp [numbered, hl, ih]
    · simp [numbered, hl, ih]

theorem statementsOf_eq_nil_iff (source : String) :
    statementsOf source = [] ↔ ∀ line ∈ Text.lines source.toList, bare line = [] := by
  have htexts := texts_statementsOf source
  constructor
  · intro h
    rw [h] at htexts
    simpa using htexts.symm
  · intro h
    have hnil : (((Text.lines source.toList).map bare).filter (· ≠ [])) = [] := by simpa using h
    rw [hnil] at htexts
    exact List.map_eq_nil_iff.1 htexts

/-- every statement of a text has the shape -/
theorem isStatement_of_mem {source : String} {s : SourceStatement} (h : s ∈ statementsOf source) :
    IsStatement s.text.toList := by
  obtain ⟨i, line, hget, -, htext, hne⟩ := mem_statementsOf_iff.1 h
  rw [htext, String.toList_ofList]
  exact isStatement_bare (Text.newline_not_mem_lines (List.mem_of_getElem? hget)) hne

/-! ## Programs of texts -/

namespace Program

variable {source : String} {p : Program}

theorem assemble_eq_error_iff {e : AssemblyError} :
    assemble source = .error e ↔ e = .empty ∧ statementsOf source = [] := by
  unfold assemble ofStatements?
  split_ifs with h
  · simp [List.isEmpty_iff.1 h, eq_comm]
  · simp [List.isEmpty_iff.not.1 h]

theorem assemble_eq_ok_iff :
    assemble source = .ok p ↔
      statementsOf source ≠ [] ∧ p = ofTexts ((statementsOf source).map SourceStatement.text) := by
  unfold assemble ofStatements?
  split_ifs with h
  · simp [List.isEmpty_iff.1 h]
  · simp [List.isEmpty_iff.not.1 h, eq_comm]

/-- a statement of a text is a statement of its program as it stands: it was trimmed already -/
theorem source_ofText_of_mem {s : SourceStatement} (h : s ∈ statementsOf source) :
    (Statement.ofText s.text).source = s.text := by
  calc (Statement.ofText s.text).source = String.ofList (Text.trim s.text.toList) := rfl
    _ = s.text := by rw [(isStatement_of_mem h).trimmed, String.ofList_toList]

theorem isStatement_source_of_assemble (h : assemble source = .ok p) {s : Statement} (hs : s ∈ p.statements) :
    IsStatement s.source.toList := by
  obtain ⟨-, rfl⟩ := assemble_eq_ok_iff.1 h
  obtain ⟨text, htext, rfl⟩ := List.mem_map.1 hs
  obtain ⟨d, hd, rfl⟩ := List.mem_map.1 htext
  rw [source_ofText_of_mem hd]
  exact isStatement_of_mem hd

theorem statements_ne_nil_of_assemble (h : assemble source = .ok p) : p.statements ≠ [] := by
  obtain ⟨hne, rfl⟩ := assemble_eq_ok_iff.1 h
  simpa [ofTexts] using hne

end Program

end ByteMachine
