/-
Edits that change nothing.

A program text may be commented, spaced out and moved between systems without becoming another program. What is left of
a line without its comment and the blanks around it is the same after a comment or blanks have been put at its end, or
blanks at its beginning, whatever was on the line before. An earlier comment stays the first one, and a slash at the end
of the line does not meet the slashes of a new comment, because there is a blank between them. A carriage return at the
end of a line is a blank, so it does not matter whether it belongs to the line or to its end. A line with nothing but
blanks and a comment gives no statement, and moves those behind it down by one.

The lines of a text and its pieces between line feeds differ in such carriage returns, and in an empty piece at the end,
so the statements can be read off the pieces. There an edit is easy to follow: it changes one piece, or puts one in.

Contents:
- `Text.pieces_append`: the pieces of a text that is put together;
- `Returned`: the same rows, some with a carriage return at the end;
- `bare_append`, `bare_blanks_append`: what may be put around the text of a line;
- `statementsFrom`: the statements of rows that are numbered from some line on;
- `Edit`: the edits;
- `SourceStatement.renumbered`: the numbers of the lines after an edit;
- `BeginsLine.pieces`, `EndsLine.pieces`, `IsIdleLine.bare_eq_nil`: where the edits are made, and what they put in;
- `statementsOf_behind`, `statementsFrom_insert`: what an edit does to the rows.

Main statements:
- `statementsOf_eq_pieces`: the statements of a text from its pieces;
- `Edit.statementsOf_eq`: an edit keeps the statements, but for their line numbers;
- `Program.edits_change_nothing`: what that means for assembling and diagnosing.
-/
import Mathlib.Tactic
import ByteMachine.Proofs.Program.Statements
import ByteMachine.Text.Pieces

namespace ByteMachine

/-! ## Pieces -/

namespace Text

variable {mark c : Char} {cs ds : List Char}

theorem pieces_cons_self (mark : Char) (cs : List Char) : pieces mark (mark :: cs) = [] :: pieces mark cs :=
  if_pos rfl

/-- a character that is no mark goes to the front of the first piece -/
theorem pieces_cons (h : c ≠ mark) {p : List Char} {ps : List (List Char)} (hp : pieces mark cs = p :: ps) :
    pieces mark (c :: cs) = (c :: p) :: ps := by
  rw [pieces, if_neg h, hp]

theorem exists_pieces_eq_cons (mark : Char) (cs : List Char) : ∃ p ps, pieces mark cs = p :: ps :=
  List.exists_cons_of_ne_nil (pieces_ne_nil mark cs)

/-- **Texts that are put together**: the last piece of the one and the first piece of the other become one. -/
theorem pieces_append (mark : Char) (cs : List Char) :
    ∃ ps p, ps.length = cs.count mark ∧
      ∀ {ds q qs}, pieces mark ds = q :: qs → pieces mark (cs ++ ds) = ps ++ (p ++ q) :: qs := by
  induction cs with
  | nil => exact ⟨[], [], rfl, fun hd => hd⟩
  | cons c cs ih =>
    obtain ⟨ps, p, hlength, happend⟩ := ih
    by_cases hc : c = mark
    · subst hc
      refine ⟨[] :: ps, p, by simp [hlength], fun hd => ?_⟩
      rw [List.cons_append, pieces_cons_self, happend hd, List.cons_append]
    · have hcount : (c :: cs).count mark = cs.count mark := List.count_cons_of_ne hc
      cases ps with
      | nil =>
        exact ⟨[], c :: p, hlength.trans hcount.symm, fun hd => pieces_cons hc (happend hd)⟩
      | cons r rs =>
        exact ⟨(c :: r) :: rs, p, hlength.trans hcount.symm, fun hd => pieces_cons hc (happend hd)⟩

/-- a text without mark goes to the front of the first piece -/
theorem pieces_append_of_not_mem (h : mark ∉ cs) {q : List Char} {qs : List (List Char)}
    (hd : pieces mark ds = q :: qs) : pieces mark (cs ++ ds) = (cs ++ q) :: qs := by
  induction cs with
  | nil => exact hd
  | cons c cs ih =>
    have hc : c ≠ mark := fun hc => h (hc ▸ List.mem_cons_self)
    exact pieces_cons hc (ih fun hm => h (List.mem_cons_of_mem c hm))

end Text

/-! ## Carriage returns at the ends of rows -/

/-- the same rows, some with a carriage return at the end -/
def Returned (ls ps : List (List Char)) : Prop :=
  List.Forall₂ (fun l p => p = l ∨ p = l ++ ['\r']) ls ps

theorem Returned.cons_cons {l p : List Char} {ls ps : List (List Char)} (c : Char) (h : Returned (l :: ls) (p :: ps)) :
    Returned ((c :: l) :: ls) ((c :: p) :: ps) := by
  obtain ⟨hl, hls⟩ := List.forall₂_cons.1 h
  refine .cons ?_ hls
  rcases hl with rfl | rfl
  · exact .inl rfl
  · exact .inr rfl

/-- a character that is no line feed can be put before both texts -/
theorem Returned.pieces_cons {c : Char} {cs ds : List Char} (hc : c ≠ '\n')
    (h : Returned (Text.pieces '\n' cs) (Text.pieces '\n' ds)) :
    Returned (Text.pieces '\n' (c :: cs)) (Text.pieces '\n' (c :: ds)) := by
  obtain ⟨p, ps, hp⟩ := Text.exists_pieces_eq_cons '\n' cs
  obtain ⟨q, qs, hq⟩ := Text.exists_pieces_eq_cons '\n' ds
  rw [Text.pieces_cons hc hp, Text.pieces_cons hc hq]
  rw [hp, hq] at h
  exact h.cons_cons c

/-- the pieces of a text are its lines, some with a carriage return, and perhaps an empty piece at the end -/
theorem returned_lines (cs : List Char) :
    ∃ ps, Returned (Text.lines cs) ps ∧ (Text.pieces '\n' cs = ps ∨ Text.pieces '\n' cs = ps ++ [[]]) := by
  fun_induction Text.lines cs with
  | case1 => exact ⟨[], .nil, .inr rfl⟩
  | case2 cs ih =>
    obtain ⟨ps, hps, hpieces⟩ := ih
    refine ⟨[] :: ps, .cons (.inl rfl) hps, ?_⟩
    rw [Text.pieces_cons_self]
    exact hpieces.imp (congrArg _) (congrArg _)
  | case3 cs ih =>
    obtain ⟨ps, hps, hpieces⟩ := ih
    refine ⟨['\r'] :: ps, .cons (.inr rfl) hps, ?_⟩
    rw [Text.pieces_cons (by decide) (Text.pieces_cons_self '\n' cs)]
    exact hpieces.imp (congrArg _) (congrArg _)
  | case4 c cs hc hcr hl ih =>
    -- there are no further lines, so there is no further character
    obtain ⟨ps, hps, hpieces⟩ := ih
    rw [hl] at hps
    obtain rfl := List.forall₂_nil_left_iff.1 hps
    refine ⟨[[c]], .cons (.inl rfl) .nil, .inl ?_⟩
    rcases hpieces with hpieces | hpieces
    · exact absurd hpieces (Text.pieces_ne_nil '\n' cs)
    · exact Text.pieces_cons hc hpieces
  | case5 c cs hc hcr l ls hl ih =>
    obtain ⟨ps, hps, hpieces⟩ := ih
    rw [hl] at hps
    cases hps with
    | @cons l p ls ps hp hps =>
      refine ⟨(c :: p) :: ps, Returned.cons_cons c (.cons hp hps), ?_⟩
      exact hpieces.imp (Text.pieces_cons hc) (Text.pieces_cons hc)

/-! ## What may be put around the text of a line -/

variable {l rest blanks : List Char}

theorem not_mem_of_isBlank {c : Char} (hc : Text.isBlank c = false) (h : ∀ b ∈ blanks, Text.isBlank b = true) :
    c ∉ blanks := by
  intro hm
  rw [h c hm] at hc
  cases hc

/-- what is put behind a line is in its comment, if it has one -/
theorem stripComment_append_cases (l : List Char) (hrest : rest.head? ≠ some '/') :
    stripComment (l ++ rest) = stripComment l ∨ stripComment (l ++ rest) = stripComment l ++ stripComment rest := by
  fun_induction stripComment l with
  | case1 => exact .inr rfl
  | case2 | case3 | case4 => exact .inl rfl
  | case5 c cs hsemicolon hhash hslashes ih =>
    have hslash : c = '/' → (cs ++ rest).head? ≠ some '/' := by
      rintro hc hhead
      cases cs with
      | nil => exact hrest hhead
      | cons d ds =>
        obtain rfl : d = '/' := Option.some.inj hhead
        exact hslashes ds hc rfl
    rw [List.cons_append, stripComment_cons hsemicolon hhash hslash]
    exact ih.imp (congrArg _) (congrArg _)

/-- what gives no more than blanks may be put behind a line -/
theorem bare_append (l : List Char) (hrest : rest.head? ≠ some '/')
    (hblank : ∀ b ∈ stripComment rest, Text.isBlank b = true) : bare (l ++ rest) = bare l := by
  unfold bare
  rcases stripComment_append_cases l hrest with h | h
  · rw [h]
  · rw [h, Text.trim_append_blanks hblank]

theorem bare_append_blanks (l : List Char) (h : ∀ b ∈ blanks, Text.isBlank b = true) : bare (l ++ blanks) = bare l := by
  refine bare_append l (fun hhead => ?_) fun b hb => h b ((stripComment_isPrefix blanks).subset hb)
  exact not_mem_of_isBlank (by decide) h (List.mem_of_head? hhead)

/-- blanks may be put before a line -/
theorem bare_blanks_append (h : ∀ b ∈ blanks, Text.isBlank b = true) (l : List Char) :
    bare (blanks ++ l) = bare l := by
  have hstrip : stripComment (blanks ++ l) = blanks ++ stripComment l := by
    induction blanks with
    | nil => rfl
    | cons b bs ih =>
      have hne : ∀ c, Text.isBlank c = false → b ≠ c := by
        rintro c hc rfl
        exact not_mem_of_isBlank hc h List.mem_cons_self
      have hrest := ih fun b hb => h b (List.mem_cons_of_mem _ hb)
      rw [List.cons_append, stripComment_cons (hne ';' (by decide)) (hne '#' (by decide))
        (fun hslash => absurd hslash (hne '/' (by decide))), hrest, List.cons_append]
  rw [bare, hstrip, Text.trim_blanks_append h, bare]

theorem blank_return : ∀ b ∈ ['\r'], Text.isBlank b = true :=
  List.all_eq_true.1 (by decide)

/-- rows that differ in carriage returns at their ends have the same texts -/
theorem Returned.map_bare {ls ps : List (List Char)} (h : Returned ls ps) : ps.map bare = ls.map bare := by
  induction h with
  | nil => rfl
  | @cons l p ls ps hp _ ih =>
    rw [List.map_cons, List.map_cons, ih]
    rcases hp with rfl | rfl
    · rfl
    · rw [bare_append_blanks l blank_return]

/-! ## Numbered rows -/

/-- the statements of rows that are numbered from line `k` on -/
def statementsFrom (k : ℕ) (ls : List (List Char)) : List SourceStatement :=
  (ls.zipIdx k).filterMap numbered

variable {ls ps : List (List Char)} {k : ℕ}

theorem statementsFrom_cons (k : ℕ) (l : List Char) (ls : List (List Char)) :
    statementsFrom k (l :: ls) = (numbered (l, k)).toList ++ statementsFrom (k + 1) ls := by
  rw [statementsFrom, List.zipIdx_cons, List.filterMap_cons]
  cases numbered (l, k) <;> rfl

theorem statementsFrom_append (k : ℕ) (ls ps : List (List Char)) :
    statementsFrom k (ls ++ ps) = statementsFrom k ls ++ statementsFrom (k + ls.length) ps := by
  rw [statementsFrom, List.zipIdx_append, List.filterMap_append]
  rfl

/-- a row without text gives no statement -/
theorem statementsFrom_cons_of_bare_eq_nil (h : bare l = []) (k : ℕ) (ls : List (List Char)) :
    statementsFrom k (l :: ls) = statementsFrom (k + 1) ls := by
  rw [statementsFrom_cons, numbered, if_pos h]
  rfl

/-- only the texts of the rows count -/
theorem statementsFrom_congr (h : ps.map bare = ls.map bare) (k : ℕ) : statementsFrom k ps = statementsFrom k ls := by
  induction ls generalizing ps k with
  | nil =>
    rw [List.map_eq_nil_iff.1 h]
  | cons l ls ih =>
    obtain ⟨p, ps, rfl, hp, hps⟩ := List.map_eq_cons_iff.1 h
    rw [statementsFrom_cons, statementsFrom_cons, ih hps, numbered, numbered, hp]

theorem le_line_of_mem_statementsFrom {s : SourceStatement} (h : s ∈ statementsFrom k ls) :
    k ≤ s.line ∧ s.line < k + ls.length := by
  obtain ⟨⟨l, n⟩, hentry, hs⟩ := List.mem_filterMap.1 h
  obtain ⟨-, rfl⟩ := numbered_eq_some_iff.1 hs
  have hbound := List.mem_zipIdx hentry
  exact ⟨hbound.1, hbound.2.1⟩

/-- **The statements of a text from its pieces.** -/
theorem statementsOf_eq_pieces (source : String) :
    statementsOf source = statementsFrom 1 (Text.pieces '\n' source.toList) := by
  obtain ⟨ps, hps, hpieces⟩ := returned_lines source.toList
  have hlines : statementsOf source = statementsFrom 1 ps := by
    rw [statementsOf_eq]
    exact (statementsFrom_congr hps.map_bare 1).symm
  rcases hpieces with hpieces | hpieces
  · rw [hpieces, hlines]
  · rw [hpieces, hlines, statementsFrom_append, statementsFrom_cons_of_bare_eq_nil rfl]
    exact (List.append_nil _).symm

/-! ## Edits -/

/-- blanks that end no line -/
def BlankWithin (text : String) : Prop :=
  (∀ b ∈ text.toList, Text.isBlank b = true) ∧ '\n' ∉ text.toList

/-- a line with nothing but blanks and a comment on it; a carriage return at its end may belong to the line end -/
def IsIdleLine (line : String) : Prop :=
  ∃ blanks comment : String, line = blanks ++ comment ∧ BlankWithin blanks ∧ '\n' ∉ comment.toList ∧
    (comment = "" ∨ ∃ mark ∈ [";", "#", "//"], mark.toList <+: comment.toList)

/-- what comes after this text begins a line -/
def BeginsLine (before : String) : Prop :=
  before = "" ∨ ∃ text, before = text ++ "\n"

/-- what comes before this text is the end of a line -/
def EndsLine (after : String) : Prop :=
  after = "" ∨ ∃ lineEnd ∈ ["\n", "\r\n"], ∃ rest, after = lineEnd ++ rest

/-- every line feed with a carriage return before it -/
def withReturns (cs : List Char) : List Char :=
  cs.flatMap fun c => if c = '\n' then ['\r', '\n'] else [c]

/-- every line feed without the carriage return before it -/
def withoutReturns : List Char → List Char
  | [] => []
  | '\r' :: '\n' :: cs => '\n' :: withoutReturns cs
  | c :: cs => c :: withoutReturns cs

/-- `Edit inserted s t`: the text `s` becomes `t` by one edit. If the edit puts in a line, `inserted` is the number of
that line. -/
inductive Edit : Option ℕ → String → String → Prop
  /-- a comment behind a line -/
  | comment {before after mark remark : String} (hend : EndsLine after) (hmark : mark ∈ [";", "#", " //"])
      (hremark : '\n' ∉ remark.toList) : Edit none (before ++ after) (before ++ (mark ++ remark ++ after))
  /-- blanks behind a line -/
  | trailing {before after blanks : String} (hend : EndsLine after) (hblanks : BlankWithin blanks) :
      Edit none (before ++ after) (before ++ (blanks ++ after))
  /-- blanks before a line -/
  | leading {before after blanks : String} (hbegin : BeginsLine before) (hblanks : BlankWithin blanks) :
      Edit none (before ++ after) (before ++ (blanks ++ after))
  /-- an idle line before a line, or behind the last line feed -/
  | line {before after line : String} (hbegin : BeginsLine before) (hline : IsIdleLine line) :
      Edit (some (before.toList.count '\n' + 1)) (before ++ after) (before ++ (line ++ "\n" ++ after))
  /-- an idle line behind a last line that has no line feed -/
  | lastLine {source lineEnd line : String} (hend : lineEnd ∈ ["\n", "\r\n"]) (hline : IsIdleLine line) :
      Edit (some (source.toList.count '\n' + 2)) source (source ++ (lineEnd ++ line))
  /-- every line feed gets a carriage return -/
  | returns (source : String) : Edit none source (String.ofList (withReturns source.toList))
  /-- every line feed loses its carriage return -/
  | noReturns (source : String) : Edit none source (String.ofList (withoutReturns source.toList))

/-- the statement, one line further down if it stands where a line was put in, or below -/
def SourceStatement.renumbered (inserted : Option ℕ) (s : SourceStatement) : SourceStatement :=
  match inserted with
  | none => s
  | some k => if k ≤ s.line then { s with line := s.line + 1 } else s

/-! ## What an edit does to the pieces -/

theorem BeginsLine.pieces {before : String} (h : BeginsLine before) :
    ∃ ps, ps.length = before.toList.count '\n' ∧
      ∀ cs, Text.pieces '\n' (before.toList ++ cs) = ps ++ Text.pieces '\n' cs := by
  rcases h with rfl | ⟨text, rfl⟩
  · exact ⟨[], rfl, fun _ => rfl⟩
  · obtain ⟨ps, p, hlength, happend⟩ := Text.pieces_append '\n' text.toList
    refine ⟨ps ++ [p], ?_, fun cs => ?_⟩
    · simp [hlength]
    · have hcut := happend (Text.pieces_cons_self '\n' cs)
      simpa using hcut

/-- a line end cuts, and leaves no more than a carriage return before the cut -/
theorem pieces_lineEnd {lineEnd : String} (h : lineEnd ∈ ["\n", "\r\n"]) :
    ∃ q, (∀ b ∈ q, Text.isBlank b = true) ∧
      ∀ cs, Text.pieces '\n' (lineEnd.toList ++ cs) = q :: Text.pieces '\n' cs := by
  simp only [List.mem_cons, List.not_mem_nil, or_false] at h
  rcases h with rfl | rfl
  · exact ⟨[], List.forall_mem_nil _, Text.pieces_cons_self '\n'⟩
  · exact ⟨['\r'], blank_return, fun cs => Text.pieces_cons (by decide) (Text.pieces_cons_self '\n' cs)⟩

theorem EndsLine.pieces {after : String} (h : EndsLine after) :
    ∃ q qs, Text.pieces '\n' after.toList = q :: qs ∧ ∀ b ∈ q, Text.isBlank b = true := by
  rcases h with rfl | ⟨lineEnd, hmem, rest, rfl⟩
  · exact ⟨[], [], rfl, List.forall_mem_nil _⟩
  · obtain ⟨q, hblank, hcut⟩ := pieces_lineEnd hmem
    exact ⟨q, _, by rw [String.toList_append, hcut], hblank⟩

theorem IsIdleLine.bare_eq_nil {line : String} (h : IsIdleLine line) : bare line.toList = [] := by
  obtain ⟨blanks, comment, rfl, hblanks, -, hcomment⟩ := h
  rw [String.toList_append, bare_blanks_append hblanks.1]
  rcases hcomment with rfl | ⟨mark, hmark, rest, hrest⟩
  · rfl
  · rw [← hrest]
    simp only [List.mem_cons, List.not_mem_nil, or_false] at hmark
    rcases hmark with rfl | rfl | rfl <;> rfl

theorem IsIdleLine.newline_not_mem {line : String} (h : IsIdleLine line) : '\n' ∉ line.toList := by
  obtain ⟨blanks, comment, rfl, hblanks, hcomment, -⟩ := h
  rw [String.toList_append, List.mem_append, not_or]
  exact ⟨hblanks.2, hcomment⟩

theorem returned_withReturns (cs : List Char) :
    Returned (Text.pieces '\n' cs) (Text.pieces '\n' (withReturns cs)) := by
  induction cs with
  | nil => exact .cons (.inl rfl) .nil
  | cons c cs ih =>
    by_cases hc : c = '\n'
    · subst hc
      have hcut : Text.pieces '\n' (withReturns ('\n' :: cs)) = ['\r'] :: Text.pieces '\n' (withReturns cs) :=
        Text.pieces_cons (by decide) (Text.pieces_cons_self '\n' _)
      rw [hcut, Text.pieces_cons_self]
      exact .cons (.inr rfl) ih
    · have hsame : withReturns (c :: cs) = c :: withReturns cs := by simp [withReturns, hc]
      rw [hsame]
      exact ih.pieces_cons hc

theorem returned_withoutReturns (cs : List Char) :
    Returned (Text.pieces '\n' (withoutReturns cs)) (Text.pieces '\n' cs) := by
  fun_induction withoutReturns cs with
  | case1 => exact .cons (.inl rfl) .nil
  | case2 cs ih =>
    rw [Text.pieces_cons (by decide) (Text.pieces_cons_self '\n' cs), Text.pieces_cons_self]
    exact .cons (.inr rfl) ih
  | case3 c cs _ ih =>
    by_cases hc : c = '\n'
    · subst hc
      rw [Text.pieces_cons_self, Text.pieces_cons_self]
      exact .cons (.inl rfl) ih
    · exact ih.pieces_cons hc

/-! ## What an edit does to the statements -/

/-- what is put behind a line and gives no more than blanks keeps the statements -/
theorem statementsOf_behind {before after added : String} (hend : EndsLine after) (hline : '\n' ∉ added.toList)
    (hadded : ∀ l q, (∀ b ∈ q, Text.isBlank b = true) → bare (l ++ (added.toList ++ q)) = bare l) :
    statementsOf (before ++ (added ++ after)) = statementsOf (before ++ after) := by
  obtain ⟨ps, p, -, happend⟩ := Text.pieces_append '\n' before.toList
  obtain ⟨q, qs, hq, hblank⟩ := hend.pieces
  have hbefore := happend hq
  have hafter := happend (Text.pieces_append_of_not_mem hline hq)
  rw [statementsOf_eq_pieces, statementsOf_eq_pieces, String.toList_append, String.toList_append, String.toList_append,
    hbefore, hafter]
  refine statementsFrom_congr ?_ 1
  simp only [List.map_append, List.map_cons, hadded p q hblank, bare_append_blanks p hblank]

/-- the statement one line further down -/
def SourceStatement.lowered (s : SourceStatement) : SourceStatement :=
  { s with line := s.line + 1 }

theorem statementsFrom_succ (k : ℕ) (ls : List (List Char)) :
    statementsFrom (k + 1) ls = (statementsFrom k ls).map SourceStatement.lowered := by
  induction ls generalizing k with
  | nil => rfl
  | cons l ls ih =>
    have hl : numbered (l, k + 1) = (numbered (l, k)).map SourceStatement.lowered := by
      unfold numbered
      split_ifs <;> rfl
    rw [statementsFrom_cons, statementsFrom_cons, List.map_append, ih, hl, Option.toList_map]

/-- a row that is put in and has no text moves the rows behind it down -/
theorem statementsFrom_insert (h : bare l = []) (ps qs : List (List Char)) :
    statementsFrom 1 (ps ++ l :: qs) =
      (statementsFrom 1 (ps ++ qs)).map (SourceStatement.renumbered (some (ps.length + 1))) := by
  have hbefore : (statementsFrom 1 ps).map (SourceStatement.renumbered (some (ps.length + 1))) =
      statementsFrom 1 ps := by
    refine (List.map_congr_left fun s hs => ?_).trans (List.map_id _)
    have hline := (le_line_of_mem_statementsFrom hs).2
    exact if_neg (by omega)
  have hbehind : (statementsFrom (1 + ps.length) qs).map (SourceStatement.renumbered (some (ps.length + 1))) =
      (statementsFrom (1 + ps.length) qs).map SourceStatement.lowered := by
    refine List.map_congr_left fun s hs => ?_
    have hline := (le_line_of_mem_statementsFrom hs).1
    exact if_pos (by omega)
  rw [statementsFrom_append, statementsFrom_append, List.map_append, hbefore, hbehind,
    statementsFrom_cons_of_bare_eq_nil h, statementsFrom_succ (1 + ps.length)]

/-- a comment with one of these marks may be put behind a line -/
theorem bare_append_comment {mark : String} (hmark : mark ∈ [";", "#", " //"]) (l remark : List Char) :
    bare (l ++ (mark.toList ++ remark)) = bare l := by
  simp only [List.mem_cons, List.not_mem_nil, or_false] at hmark
  rcases hmark with rfl | rfl | rfl
  · exact bare_append l (by simp) (List.forall_mem_nil _)
  · exact bare_append l (by simp) (List.forall_mem_nil _)
  · have hstrip : stripComment (" //".toList ++ remark) = [' '] := rfl
    refine bare_append l (by simp) ?_
    rw [hstrip]
    exact List.all_eq_true.1 (by decide)

theorem statementsOf_comment {before after mark remark : String} (hend : EndsLine after)
    (hmark : mark ∈ [";", "#", " //"]) (hremark : '\n' ∉ remark.toList) :
    statementsOf (before ++ (mark ++ remark ++ after)) = statementsOf (before ++ after) := by
  have hline : '\n' ∉ mark.toList := by
    revert hmark
    revert mark
    decide
  refine statementsOf_behind hend ?_ fun l q _ => ?_
  · rw [String.toList_append, List.mem_append, not_or]
    exact ⟨hline, hremark⟩
  · rw [String.toList_append, List.append_assoc]
    exact bare_append_comment hmark l _

theorem statementsOf_trailing {before after blanks : String} (hend : EndsLine after) (hblanks : BlankWithin blanks) :
    statementsOf (before ++ (blanks ++ after)) = statementsOf (before ++ after) := by
  refine statementsOf_behind hend hblanks.2 fun l q hq => bare_append_blanks l fun b hb => ?_
  exact (List.mem_append.1 hb).elim (hblanks.1 b) (hq b)

theorem statementsOf_leading {before after blanks : String} (hbegin : BeginsLine before)
    (hblanks : BlankWithin blanks) :
    statementsOf (before ++ (blanks ++ after)) = statementsOf (before ++ after) := by
  obtain ⟨ps, -, happend⟩ := hbegin.pieces
  obtain ⟨q, qs, hq⟩ := Text.exists_pieces_eq_cons '\n' after.toList
  rw [statementsOf_eq_pieces, statementsOf_eq_pieces, String.toList_append, String.toList_append,
    String.toList_append, happend, happend, Text.pieces_append_of_not_mem hblanks.2 hq, hq]
  refine statementsFrom_congr ?_ 1
  simp only [List.map_append, List.map_cons, bare_blanks_append hblanks.1]

/-- an idle line that is put in moves the statements behind it down -/
theorem statementsOf_line {before after line : String} (hbegin : BeginsLine before) (hline : IsIdleLine line) :
    statementsOf (before ++ (line ++ "\n" ++ after)) =
      (statementsOf (before ++ after)).map (.renumbered (some (before.toList.count '\n' + 1))) := by
  obtain ⟨ps, hlength, happend⟩ := hbegin.pieces
  have hrows : Text.pieces '\n' (before ++ (line ++ "\n" ++ after)).toList =
      ps ++ line.toList :: Text.pieces '\n' after.toList := by
    have hself := Text.pieces_cons_self '\n' after.toList
    have hcut := Text.pieces_append_of_not_mem hline.newline_not_mem hself
    simpa [happend] using hcut
  rw [statementsOf_eq_pieces, statementsOf_eq_pieces, hrows, statementsFrom_insert hline.bare_eq_nil,
    String.toList_append, happend, hlength]

/-- an idle line behind the last one moves nothing -/
theorem statementsOf_lastLine {source lineEnd line : String} (hend : lineEnd ∈ ["\n", "\r\n"])
    (hline : IsIdleLine line) :
    statementsOf (source ++ (lineEnd ++ line)) =
      (statementsOf source).map (.renumbered (some (source.toList.count '\n' + 2))) := by
  obtain ⟨ps, p, hlength, happend⟩ := Text.pieces_append '\n' source.toList
  obtain ⟨q, hblank, hcut⟩ := pieces_lineEnd hend
  have hnil : Text.pieces '\n' [] = [[]] := rfl
  have hbefore : Text.pieces '\n' source.toList = ps ++ [p] := by
    have h := happend hnil
    rwa [List.append_nil, List.append_nil] at h
  have hlast : Text.pieces '\n' line.toList = [line.toList] := by
    have h := Text.pieces_append_of_not_mem hline.newline_not_mem hnil
    rwa [List.append_nil] at h
  have hrows : Text.pieces '\n' (source ++ (lineEnd ++ line)).toList = (ps ++ [p ++ q]) ++ line.toList :: [] := by
    have h := happend (hcut line.toList)
    rw [hlast] at h
    simpa using h
  have hbare : statementsFrom 1 (ps ++ [p ++ q]) = statementsFrom 1 (ps ++ [p]) := by
    refine statementsFrom_congr ?_ 1
    simp only [List.map_append, List.map_cons, List.map_nil, bare_append_blanks p hblank]
  have hnumber : (ps ++ [p ++ q]).length + 1 = source.toList.count '\n' + 2 := by simp [hlength]
  rw [statementsOf_eq_pieces, statementsOf_eq_pieces, hrows, statementsFrom_insert hline.bare_eq_nil,
    List.append_nil, hbare, hbefore, hnumber]

/-- texts whose pieces differ in carriage returns have the same statements -/
theorem statementsOf_of_returned {s t : String}
    (h : Returned (Text.pieces '\n' s.toList) (Text.pieces '\n' t.toList)) : statementsOf t = statementsOf s := by
  rw [statementsOf_eq_pieces, statementsOf_eq_pieces]
  exact statementsFrom_congr h.map_bare 1

/-- **An edit keeps the statements**, but for their line numbers. -/
theorem Edit.statementsOf_eq {inserted : Option ℕ} {s t : String} (h : Edit inserted s t) :
    statementsOf t = (statementsOf s).map (SourceStatement.renumbered inserted) := by
  have hsame : (statementsOf s).map (SourceStatement.renumbered none) = statementsOf s := List.map_id _
  cases h with
  | comment hend hmark hremark => exact (statementsOf_comment hend hmark hremark).trans hsame.symm
  | trailing hend hblanks => exact (statementsOf_trailing hend hblanks).trans hsame.symm
  | leading hbegin hblanks => exact (statementsOf_leading hbegin hblanks).trans hsame.symm
  | line hbegin hline => exact statementsOf_line hbegin hline
  | lastLine hend hline => exact statementsOf_lastLine hend hline
  | returns =>
    refine (statementsOf_of_returned ?_).trans hsame.symm
    rw [String.toList_ofList]
    exact returned_withReturns s.toList
  | noReturns =>
    refine Eq.trans (statementsOf_of_returned ?_).symm hsame.symm
    rw [String.toList_ofList]
    exact returned_withoutReturns s.toList

/-! ## Assembling and diagnosing after an edit -/

/-- the error, with the line number after the edit -/
def AssemblyError.renumbered (inserted : Option ℕ) : AssemblyError → AssemblyError
  | .empty => .empty
  | .unknownStatement s => .unknownStatement (s.renumbered inserted)

@[simp] theorem SourceStatement.renumbered_text (inserted : Option ℕ) (s : SourceStatement) :
    (s.renumbered inserted).text = s.text := by
  unfold renumbered
  split
  · rfl
  · split_ifs <;> rfl

@[simp] theorem SourceStatement.isUnknown_renumbered (inserted : Option ℕ) :
    SourceStatement.isUnknown ∘ SourceStatement.renumbered inserted = SourceStatement.isUnknown := by
  funext s
  rw [Function.comp_apply, isUnknown, renumbered_text, isUnknown]

namespace Edit

variable {inserted : Option ℕ} {s t : String}

theorem diagnose_eq (h : Edit inserted s t) :
    diagnose t = (diagnose s).map (SourceStatement.renumbered inserted) := by
  rw [diagnose, h.statementsOf_eq, List.filter_map, SourceStatement.isUnknown_renumbered, diagnose]

theorem assemble_eq (h : Edit inserted s t) : Program.assemble t = Program.assemble s := by
  have htexts : SourceStatement.text ∘ SourceStatement.renumbered inserted = SourceStatement.text := by
    funext s
    exact s.renumbered_text inserted
  rw [Program.assemble, Program.assemble, Program.ofStatements?, Program.ofStatements?, h.statementsOf_eq,
    List.isEmpty_map, List.map_map, htexts]

theorem assembleStrict_eq (h : Edit inserted s t) :
    Program.assembleStrict t = (Program.assembleStrict s).mapError (AssemblyError.renumbered inserted) := by
  have hfirst : (statementsOf t).find? SourceStatement.isUnknown =
      ((statementsOf s).find? SourceStatement.isUnknown).map (SourceStatement.renumbered inserted) := by
    rw [h.statementsOf_eq, List.find?_map, SourceStatement.isUnknown_renumbered]
  rw [Program.assembleStrict, Program.assembleStrict, hfirst, h.assemble_eq]
  cases (statementsOf s).find? SourceStatement.isUnknown with
  | some d => rfl
  | none =>
    rw [Program.assemble, Program.ofStatements?]
    split_ifs <;> rfl

end Edit

namespace Program

/-- **Edits that change nothing**: comments, blanks, idle lines and carriage returns.
1. The text still is the same program, or still is none.
2. Strict assembling gives a program exactly if it did, and it is the same one.
3. The same statements are diagnosed.
4. If strict assembling complains, then about the same statement; its line number is the same, or one more if a line was
put in at its place or above.
5. So are the line numbers of the statements that are diagnosed. -/
theorem edits_change_nothing {inserted : Option ℕ} {s t : String} (h : Edit inserted s t) :
    assemble t = assemble s ∧
    (∀ p, assembleStrict t = .ok p ↔ assembleStrict s = .ok p) ∧
    (diagnose t).map SourceStatement.text = (diagnose s).map SourceStatement.text ∧
    assembleStrict t = (assembleStrict s).mapError (AssemblyError.renumbered inserted) ∧
    diagnose t = (diagnose s).map (SourceStatement.renumbered inserted) := by
  refine ⟨h.assemble_eq, fun p => ?_, ?_, h.assembleStrict_eq, h.diagnose_eq⟩
  · rw [h.assembleStrict_eq]
    cases assembleStrict s with
    | ok q => rfl
    | error e => exact iff_of_false nofun nofun
  · rw [h.diagnose_eq, List.map_map]
    exact List.map_congr_left fun d _ => d.renumbered_text inserted

/-- a slash at the end of a line, a comment with another mark in it, both line ends, and three statements that are no
transfers -/
def slashedText : String :=
  "A <- R1\n/\r\nfoo # a; b\nbar"

/-- with a comment behind the slash -/
def slashedText.commented : String :=
  "A <- R1\n/ //; c\r\nfoo # a; b\nbar"

/-- with an idle line after the one with the slash -/
def slashedText.lengthened : String :=
  "A <- R1\n/\r\n\t# d\r\nfoo # a; b\nbar"

theorem edits_change_nothing_slashedText :
    diagnose slashedText = [⟨2, "/"⟩, ⟨3, "foo"⟩, ⟨4, "bar"⟩] ∧
      (Edit none slashedText slashedText.commented ∧
        assemble slashedText.commented = .ok (ofTexts ["A <- R1", "/", "foo", "bar"]) ∧
        diagnose slashedText.commented = [⟨2, "/"⟩, ⟨3, "foo"⟩, ⟨4, "bar"⟩]) ∧
      (Edit (some 3) slashedText slashedText.lengthened ∧
        assembleStrict slashedText.lengthened = .error (.unknownStatement ⟨2, "/"⟩) ∧
        diagnose slashedText.lengthened = [⟨2, "/"⟩, ⟨4, "foo"⟩, ⟨5, "bar"⟩]) := by
  have hassemble : assemble slashedText = .ok (ofTexts ["A <- R1", "/", "foo", "bar"]) := by decide +kernel
  have hstrict : assembleStrict slashedText = .error (.unknownStatement ⟨2, "/"⟩) := by decide +kernel
  have hdiagnose : diagnose slashedText = [⟨2, "/"⟩, ⟨3, "foo"⟩, ⟨4, "bar"⟩] := by decide +kernel
  have hcomment : Edit none slashedText slashedText.commented := by
    have hs : slashedText = "A <- R1\n/" ++ "\r\nfoo # a; b\nbar" := by decide
    have ht : slashedText.commented = "A <- R1\n/" ++ (" //" ++ "; c" ++ "\r\nfoo # a; b\nbar") := by decide
    rw [hs, ht]
    exact .comment (.inr ⟨"\r\n", by decide, "foo # a; b\nbar", by decide⟩) (by decide) (by decide)
  have hline : Edit (some 3) slashedText slashedText.lengthened := by
    have hs : slashedText = "A <- R1\n/\r\n" ++ "foo # a; b\nbar" := by decide
    have ht : slashedText.lengthened = "A <- R1\n/\r\n" ++ ("\t# d\r" ++ "\n" ++ "foo # a; b\nbar") := by decide
    have hidle : IsIdleLine "\t# d\r" :=
      ⟨"\t", "# d\r", by decide, ⟨List.all_eq_true.1 (by decide), by decide⟩, by decide,
        .inr ⟨"#", by decide, by decide⟩⟩
    have hnumber : 3 = "A <- R1\n/\r\n".toList.count '\n' + 1 := by decide
    rw [hs, ht, hnumber]
    exact .line (.inr ⟨"A <- R1\n/\r", by decide⟩) hidle
  obtain ⟨hcommented, -, -, -, hdiagnosed⟩ := edits_change_nothing hcomment
  obtain ⟨-, -, -, hlengthened, hlowered⟩ := edits_change_nothing hline
  rw [hassemble] at hcommented
  rw [hdiagnose] at hdiagnosed hlowered
  rw [hstrict] at hlengthened
  exact ⟨hdiagnose, ⟨hcomment, hcommented, hdiagnosed⟩, hline, hlengthened, hlowered⟩

end Program

end ByteMachine
