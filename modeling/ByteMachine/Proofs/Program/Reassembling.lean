/-
Listings assemble again.

An assembled program can be written down in two ways, as the texts that it was made from or as the canonical texts of
its statements, one to a line. Both are programs again: the first is the same program, the second has the same
micro-operations. What makes this work is the shape of a statement. A canonical text has it too, and the mark after a
text that is no transfer is itself a comment, so it is cut off again.

Contents:
- `Carries`: a line with this statement on it, and nothing else but blanks and a comment;
- `MicroOp.isStatement_text_of_key`: the canonical text of a transfer is a statement;
- `Statement.carries_canonical`: what a listing prints of a statement carries the text of its micro-operation;
- `Program.assemble_carried`: lines that carry statements are assembled to these;
- `Text.padded_two`: numbers of at least two digits.

Main statement:
- `Program.listing_assembles_again`: both ways of writing a program down, and the listing around the second.
-/
import ByteMachine.Program.Listing
import ByteMachine.Proofs.MicroOp.Canonical
import ByteMachine.Proofs.Program.Statements

namespace ByteMachine

/-! ## Ends and digits -/

namespace Text

/-- a text is trimmed if there is no blank at either end -/
theorem trim_of_ends {c d : Char} (hc : isBlank c = false) (hd : isBlank d = false) (mid : List Char) :
    trim (c :: (mid ++ [d])) = c :: (mid ++ [d]) := by
  have hstart : trimStart (c :: (mid ++ [d])) = c :: (mid ++ [d]) := List.dropWhile_cons_of_neg (by simp [hc])
  have hend : (d :: (c :: mid).reverse).dropWhile isBlank = d :: (c :: mid).reverse :=
    List.dropWhile_cons_of_neg (by simp [hd])
  have hreverse : (c :: (mid ++ [d])).reverse = d :: (c :: mid).reverse := by simp
  rw [trim, hstart, trimEnd, hreverse, hend, ← hreverse, List.reverse_reverse]

/-- a number with at least two digits has a zero in front if it is below ten -/
theorem padded_two (n : ℕ) : padded 2 n = (if n < 10 then "0" else "") ++ numeral n := by
  unfold padded padLeft numeral decimal
  split_ifs with h
  · rw [Nat.toDigits_of_lt_base h, String.ofList_append]
    rfl
  · have hlong : 2 ≤ (Nat.toDigits 10 n).length := by
      have hne : Nat.toDigits 10 (n / 10) ≠ [] := Nat.toDigits_ne_nil
      have hpos := List.length_pos_of_ne_nil hne
      rw [Nat.toDigits_of_base_le (by decide) (Nat.le_of_not_lt h), List.length_append, List.length_singleton]
      omega
    rw [Nat.sub_eq_zero_of_le hlong]
    rfl

end Text

/-! ## Canonical texts are statements -/

theorem Uncommented.of_forall {cs : List Char} (h : ∀ c ∈ cs, c ≠ ';' ∧ c ≠ '#' ∧ c ≠ '/') : Uncommented cs where
  semicolon hm := (h _ hm).1 rfl
  hash hm := (h _ hm).2.1 rfl
  slashes hs := (h '/' (hs.subset List.mem_cons_self)).2.2 rfl

/-- a character that starts no comment and ends no line -/
def isPlain (c : Char) : Bool :=
  c != ';' && c != '#' && c != '/' && c != '\n'

theorem isPlain_of_isDigit {c : Char} (h : Text.isDigit c = true) : isPlain c = true := by
  have hne : ∀ d, Text.isDigit d = false → c ≠ d := by
    rintro d hd rfl
    rw [h] at hd
    cases hd
  simp [isPlain, hne ';' (by decide), hne '#' (by decide), hne '/' (by decide), hne '\n' (by decide)]

/-- a row of plain characters with no blank at either end is a statement -/
theorem isStatement_of_isPlain {c d : Char} {mid : List Char} (hc : Text.isBlank c = false)
    (hd : Text.isBlank d = false) (h : ∀ x ∈ c :: (mid ++ [d]), isPlain x = true) :
    IsStatement (c :: (mid ++ [d])) where
  nonempty := List.cons_ne_nil c _
  trimmed := Text.trim_of_ends hc hd mid
  uncommented := .of_forall fun x hx => by
    have hplain := h x hx
    simp only [isPlain, Bool.and_eq_true, bne_iff_ne] at hplain
    exact ⟨hplain.1.1.1, hplain.1.1.2, hplain.1.2⟩
  oneLine hm := absurd (h _ hm) (by decide)

namespace MicroOp

/-- a text around the number of a register is a statement if it is plain -/
theorem isStatement_numeral (n : ℕ) {c d : Char} {before after : List Char} (hc : Text.isBlank c = false)
    (hd : Text.isBlank d = false) (hbefore : (c :: before).all isPlain = true)
    (hafter : (after ++ [d]).all isPlain = true) :
    IsStatement (c :: ((before ++ (Text.decimal n ++ after)) ++ [d])) := by
  refine isStatement_of_isPlain hc hd fun x hx => ?_
  have hx' : x ∈ c :: before ∨ x ∈ Text.decimal n ∨ x ∈ after ++ [d] := by
    simpa [or_assoc] using hx
  rcases hx' with hx | hx | hx
  · exact List.all_eq_true.1 hbefore x hx
  · exact isPlain_of_isDigit (Text.isDigit_of_mem_decimal hx)
  · exact List.all_eq_true.1 hafter x hx

theorem isStatement_text_fixed : ∀ entry ∈ fixedKeys, IsStatement entry.2.text.toList := by decide +kernel

/-- the canonical text of what has a key is a statement -/
theorem isStatement_text_of_key {k : List Char} {op : MicroOp} (h : ofKey? k = some op) :
    IsStatement op.text.toList := by
  rcases ofKey?_cases h with ⟨entry, he, rfl⟩ | ⟨n, -, rfl | rfl | rfl⟩
  · exact isStatement_text_fixed entry he
  · have ht : (text (.busAFromRegister n)).toList = 'A' :: ((" ← R[".toList ++ (Text.decimal n ++ [])) ++ [']']) := by
      simp [text, registerName, Text.numeral]
    rw [ht]
    exact isStatement_numeral n (by decide) (by decide) (by decide) (by decide)
  · have ht : (text (.busBFromRegister n)).toList = 'B' :: ((" ← R[".toList ++ (Text.decimal n ++ [])) ++ [']']) := by
      simp [text, registerName, Text.numeral]
    rw [ht]
    exact isStatement_numeral n (by decide) (by decide) (by decide) (by decide)
  · have ht : (text (.registerFromAlu n)).toList =
        'R' :: ((['['] ++ (Text.decimal n ++ "] ← AL".toList)) ++ ['U']) := by
      simp [text, registerName, Text.numeral]
    rw [ht]
    exact isStatement_numeral n (by decide) (by decide) (by decide) (by decide)

end MicroOp

/-! ## Lines with a statement on them -/

/-- a line with this statement on it, and nothing else but blanks and a comment -/
structure Carries (line text : String) : Prop where
  bare_eq : bare line.toList = text.toList
  nonempty : text.toList ≠ []
  oneLine : '\n' ∉ line.toList
  noReturn : line.toList.getLast? ≠ some '\r'

theorem Carries.self {text : String} (h : IsStatement text.toList) : Carries text text where
  bare_eq := h.bare_eq
  nonempty := h.nonempty
  oneLine := h.oneLine
  noReturn := Text.getLast?_of_trim_eq h.trimmed (by decide)

/-- the mark after a text is a comment -/
theorem Carries.marked {text : String} (h : IsStatement text.toList) : Carries (text ++ "  ; ??") text where
  bare_eq := by
    have hmark : "  ; ??".toList = [' ', ' '] ++ ';' :: " ??".toList := by decide
    rw [String.toList_append, hmark]
    exact h.bare_append (List.all_eq_true.1 (by decide))
  nonempty := h.nonempty
  oneLine hm := by
    rw [String.toList_append, List.mem_append] at hm
    exact hm.elim h.oneLine (by decide)
  noReturn hlast := by
    have hmark : "  ; ??".toList.getLast? = some '?' := by decide
    rw [String.toList_append, List.getLast?_append, hmark] at hlast
    cases hlast

namespace Statement

theorem canonical_of_known {s : Statement} (h : s.op.isUnknown = false) : s.canonical = s.op.text := by
  unfold canonical
  split
  · next text hop =>
    rw [hop] at h
    cases h
  · rfl

theorem op_of_no_key {s : Statement} (h : MicroOp.ofKey? (MicroOp.key s.source.toList) = none) :
    s.op = .unknown s.source := by
  rw [op, MicroOp.decode, h, Option.getD_none, s.isTrimmed]

/-- what a listing prints of a statement carries the text of its micro-operation -/
theorem carries_canonical (s : Statement) (h : IsStatement s.source.toList) : Carries s.canonical s.op.text := by
  cases hk : MicroOp.ofKey? (MicroOp.key s.source.toList) with
  | none =>
    have hop : s.op = .unknown s.source := op_of_no_key hk
    have hcanonical : s.canonical = s.source ++ "  ; ??" := by rw [canonical, hop]
    rw [hcanonical, hop]
    exact .marked h
  | some op =>
    have hop : s.op = op := by rw [Statement.op, MicroOp.decode, hk, Option.getD_some]
    have hknown : s.op.isUnknown = false := by rw [hop, MicroOp.ofKey?_isUnknown hk]
    rw [canonical_of_known hknown, hop]
    exact .self (MicroOp.isStatement_text_of_key hk)

end Statement

/-! ## Assembling what was written down -/

namespace Program

variable {α : Type} {items : List α} {line text : α → String}

theorem texts_of_carried (h : ∀ a ∈ items, Carries (line a) (text a)) :
    (statementsOf ("\n".intercalate (items.map line))).map SourceStatement.text = items.map text := by
  have hlines : Text.lines ("\n".intercalate (items.map line)).toList = items.map fun a => (line a).toList := by
    rw [String.toList_intercalate, List.map_map]
    refine Text.lines_intercalate fun l hl => ?_
    obtain ⟨a, ha, rfl⟩ := List.mem_map.1 hl
    refine ⟨fun hnil => (h a ha).nonempty ?_, (h a ha).oneLine, (h a ha).noReturn⟩
    -- nothing is left of an empty line
    rw [← (h a ha).bare_eq, show (line a).toList = [] from hnil]
    rfl
  have hbare : (items.map fun a => (line a).toList).map bare = items.map fun a => (text a).toList := by
    rw [List.map_map]
    exact List.map_congr_left fun a ha => (h a ha).bare_eq
  have hall : (items.map fun a => (text a).toList).filter (· ≠ []) = items.map fun a => (text a).toList := by
    rw [List.filter_eq_self]
    intro l hl
    obtain ⟨a, ha, rfl⟩ := List.mem_map.1 hl
    exact decide_eq_true (h a ha).nonempty
  rw [texts_statementsOf, hlines, hbare, hall, List.map_map]
  exact List.map_congr_left fun a _ => String.ofList_toList

/-- lines that carry statements are assembled to these -/
theorem assemble_carried (hne : items ≠ []) (h : ∀ a ∈ items, Carries (line a) (text a)) :
    assemble ("\n".intercalate (items.map line)) = .ok (ofTexts (items.map text)) := by
  have htexts := texts_of_carried h
  refine assemble_eq_ok_iff.2 ⟨fun hnil => hne ?_, by rw [htexts]⟩
  rw [hnil] at htexts
  exact List.map_eq_nil_iff.1 htexts.symm

/-- the texts that a program was made from make it again -/
theorem assemble_sources {source : String} {p : Program} (h : assemble source = .ok p) :
    assemble ("\n".intercalate p.sources) = .ok p := by
  have hcarried := assemble_carried (statements_ne_nil_of_assemble h) fun s hs =>
    Carries.self (isStatement_source_of_assemble h hs)
  rwa [show ofTexts (p.statements.map Statement.source) = p from ofTexts_sources p] at hcarried

/-- its canonical texts make the program that is written anew -/
theorem assemble_canonical {source : String} {p : Program} (h : assemble source = .ok p) :
    assemble ("\n".intercalate (p.statements.map Statement.canonical)) = .ok p.respelled := by
  have hcarried := assemble_carried (statements_ne_nil_of_assemble h) fun s hs =>
    s.carries_canonical (isStatement_source_of_assemble h hs)
  rwa [respelled, ops, List.map_map]

/-! ## Listings -/

/-- the rows of a listing, without their ends -/
def rows (p : Program) (currentStep : ℕ) : List String :=
  (p.listing currentStep).map ListingLine.render

theorem length_rows (p : Program) (currentStep : ℕ) : (p.rows currentStep).length = p.length := by
  simp [rows, listing, length]

theorem listingText_eq_rows (p : Program) (currentStep : ℕ) :
    p.listingText currentStep = String.join ((p.rows currentStep).map (· ++ "\n")) := by
  rw [rows, List.map_map, listingText]
  rfl

/-- one row: the marker, the number with at least two digits, and the canonical text -/
theorem getElem?_rows (p : Program) (currentStep i : ℕ) :
    (p.rows currentStep)[i]? = (p.statement? i).map fun s =>
      (if i = currentStep then "▶" else " ") ++ " " ++ ((if i < 10 then "0" else "") ++ Text.numeral i) ++ ": " ++
        s.canonical := by
  simp only [rows, listing, List.getElem?_map, List.getElem?_zipIdx, statement?, Option.map_map]
  refine congrArg (fun row => p.statements[i]?.map row) (funext fun s => ?_)
  simp [ListingLine.render, ListingLine.heading, Text.padded_two]

/-- no row of the listing of an assembled program has a line feed in it -/
theorem newline_not_mem_row {source : String} {p : Program} (h : assemble source = .ok p) {currentStep : ℕ}
    {row : String} (hrow : row ∈ p.rows currentStep) : '\n' ∉ row.toList := by
  obtain ⟨i, hi⟩ := List.mem_iff_getElem?.1 hrow
  rw [getElem?_rows, Option.map_eq_some_iff] at hi
  obtain ⟨s, hs, rfl⟩ := hi
  have hcanonical : '\n' ∉ s.canonical.toList :=
    (s.carries_canonical (isStatement_source_of_assemble h (List.mem_of_getElem? hs))).oneLine
  have hnumeral : '\n' ∉ (Text.numeral i).toList := by
    rw [Text.numeral, String.toList_ofList]
    exact fun hm => absurd (Text.isDigit_of_mem_decimal hm) (by decide)
  have hmarker : '\n' ∉ (if i = currentStep then "▶" else " ").toList := by split_ifs <;> decide
  have hzero : '\n' ∉ (if i < 10 then "0" else "").toList := by split_ifs <;> decide
  simp only [String.toList_append, List.mem_append, not_or]
  exact ⟨⟨⟨⟨hmarker, by decide⟩, hzero, hnumeral⟩, by decide⟩, hcanonical⟩

/-- **Listings assemble again.** Let a text be assembled.
- The texts that the program was made from, one to a line, make the same program.
- The canonical texts of its statements, one to a line, make a program with the same micro-operations in the same
  order; what is no transfer is marked, and stays what it was.
- Whichever step is next, the listing is a line for each statement: the marker if it is the next one and a blank if not,
  its place with at least two digits, and its canonical text. -/
theorem listing_assembles_again {source : String} {p : Program} (h : assemble source = .ok p) :
    assemble ("\n".intercalate p.sources) = .ok p ∧
    (∃ q, assemble ("\n".intercalate (p.statements.map Statement.canonical)) = .ok q ∧ q.ops = p.ops) ∧
    ∀ currentStep, ∃ rows : List String,
      p.listingText currentStep = String.join (rows.map (· ++ "\n")) ∧ (∀ row ∈ rows, '\n' ∉ row.toList) ∧
      rows.length = p.length ∧
      ∀ i s, p.statement? i = some s →
        rows[i]? = some ((if i = currentStep then "▶" else " ") ++ " " ++
          ((if i < 10 then "0" else "") ++ Text.numeral i) ++ ": " ++ s.canonical) := by
  refine ⟨assemble_sources h, ⟨p.respelled, assemble_canonical h, ops_respelled p⟩, fun currentStep => ?_⟩
  refine ⟨p.rows currentStep, listingText_eq_rows p currentStep, fun row => newline_not_mem_row h,
    length_rows p currentStep, fun i s hs => ?_⟩
  rw [getElem?_rows, hs]
  rfl

/-- a register with zeros in front, and a statement that is no transfer with a carriage return and a wide blank in it -/
def oddText : String :=
  "a <- r007 ; seven\r\n\u3000foo\r/ \u3000bar # none\n\nmar <- pc"

theorem oddText_assembles_again :
    let p := ofTexts ["a <- r007", "foo\r/ \u3000bar", "mar <- pc"]
    assemble oddText = .ok p ∧
    assemble "a <- r007\nfoo\r/ \u3000bar\nmar <- pc" = .ok p ∧
    (∃ q, assemble "A ← R[7]\nfoo\r/ \u3000bar  ; ??\nMAR ← PC" = .ok q ∧ q.ops = p.ops) ∧
    ∃ rows : List String, p.listingText 1 = String.join (rows.map (· ++ "\n")) ∧ rows.length = 3 ∧
      rows[1]? = some "▶ 01: foo\r/ \u3000bar  ; ??" := by
  intro p
  have hassemble : assemble oddText = .ok p := by decide +kernel
  have hsources : "\n".intercalate p.sources = "a <- r007\nfoo\r/ \u3000bar\nmar <- pc" := by decide +kernel
  have hcanonical : "\n".intercalate (p.statements.map Statement.canonical) =
      "A ← R[7]\nfoo\r/ \u3000bar  ; ??\nMAR ← PC" := by decide +kernel
  obtain ⟨hagain, hrespelled, hlisting⟩ := listing_assembles_again hassemble
  obtain ⟨rows, htext, -, hlength, hrow⟩ := hlisting 1
  rw [hsources] at hagain
  rw [hcanonical] at hrespelled
  refine ⟨hassemble, hagain, hrespelled, rows, htext, hlength, ?_⟩
  rw [hrow 1 (.ofText "foo\r/ \u3000bar") rfl]
  decide +kernel

end Program

end ByteMachine
