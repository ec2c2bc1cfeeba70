/-
Which texts are octets.

What counts of a text is left when the blanks at its ends, one mark `0b` in front and all underscores are gone. An octet
is read if eight bits count, and it is written back as just these. Reading goes from the right to the left, so if eight
characters count, but not all of them are bits, the error names the rightmost that is none.

As a document an octet is its eight characters between quotes, and any other spelling of it may stand there as well.

Contents:
- `counted`: what counts of a text, and `binaryValue`, the number that it stands for;
- `Fault`: why a text is no octet;
- `Spelling`: the texts that an octet may have, with a mark or without, with underscores and blanks;
- `parse_eq_ok_iff`, `parse_eq_error_iff`: when reading succeeds, and when and why it fails;
- `spelling_iff`: what is read are the spellings;
- `ofJson?_str_eq_some_iff`, `compact_toJson`: which documents are read, and the one that is written.

Main statement: `parses_exactly_its_spellings`.
-/
import Mathlib.Tactic
import ByteMachine.Document.Arithmetic
import ByteMachine.Proofs.Adder.Sums
import ByteMachine.Proofs.Json.RoundTrip
import ByteMachine.Proofs.Program.Statements

namespace ByteMachine

/-! ## Characters that stand for bits -/

namespace Bit

theorem ofChar?_eq_some_iff (c : Char) (b : Bit) : ofChar? c = some b ↔ c = b.toChar := by
  constructor
  · intro h
    unfold ofChar? at h
    split at h <;> cases h <;> rfl
  · rintro rfl
    exact ofChar?_toChar b

/-- is `c` one of the two digits? -/
def IsDigit (c : Char) : Prop :=
  c = '0' ∨ c = '1'

theorem isDigit_iff (c : Char) : IsDigit c ↔ ∃ b : Bit, c = b.toChar := by
  constructor
  · rintro (rfl | rfl)
    · exact ⟨.zero, rfl⟩
    · exact ⟨.one, rfl⟩
  · rintro ⟨b, rfl⟩
    cases b
    · exact .inl rfl
    · exact .inr rfl

theorem ofChar?_eq_none_iff (c : Char) : ofChar? c = none ↔ ¬IsDigit c := by
  rw [isDigit_iff, Option.eq_none_iff_forall_ne_some]
  simp only [ne_eq, ofChar?_eq_some_iff, not_exists]

theorem value_eq_ofDigits (bs : List Bit) : value bs = Nat.ofDigits 2 (bs.map toNat) := by
  induction bs with
  | nil => rfl
  | cons b bs ih => rw [value, ih, List.map_cons, Nat.ofDigits_cons]

end Bit

namespace Octet

/-! ## What counts of a text -/

/-- the text without one mark in front -/
def unmarked (cs : List Char) : List Char :=
  if ['0', 'b'] <+: cs then cs.drop 2 else cs

/-- what counts of a text: no blanks at its ends, no mark in front, no underscores -/
def counted (s : String) : List Char :=
  (unmarked (Text.trim s.toList)).filter (· ≠ '_')

/-- the number that a row of binary digits stands for, the most significant digit first -/
def binaryValue (cs : List Char) : ℕ :=
  Nat.ofDigits 2 (cs.reverse.map fun c => if c = '1' then 1 else 0)

/-- why a text is no octet, told by what counts of it -/
inductive Fault (cs : List Char) : ParseError → Prop
  | wrongLength (h : cs.length ≠ 8) : Fault cs (.wrongLength cs.length)
  | invalidChar {before after : List Char} {c : Char} (hl : cs.length = 8) (hcs : cs = before ++ c :: after)
      (hc : ¬Bit.IsDigit c) (hafter : ∀ d ∈ after, Bit.IsDigit d) : Fault cs (.invalidChar c)

/-- a text that an octet may have: its digits with underscores anywhere, a mark in front or none, blanks around -/
inductive Spelling (o : Octet) : String → Prop
  | mk {before mark digits after : List Char} (hbefore : ∀ c ∈ before, Text.isBlank c = true)
      (hmark : mark = [] ∨ mark = ['0', 'b']) (hdigits : digits.filter (· ≠ '_') = o.text.toList)
      (hafter : ∀ c ∈ after, Text.isBlank c = true) :
      Spelling o (String.ofList (before ++ (mark ++ digits) ++ after))

theorem digitsOf_eq (s : String) : digitsOf s.toList = counted s := by
  have hfilter : (fun c : Char => c != '_') = fun c => decide (c ≠ '_') := by
    funext c
    by_cases h : c = '_' <;> simp [h]
  rw [digitsOf, counted, hfilter]
  refine congrArg (List.filter _) ?_
  unfold unmarked
  split
  · next rest h =>
    rw [h, if_pos (show ['0', 'b'] <+: '0' :: 'b' :: rest from List.prefix_append _ _)]
    rfl
  · next h =>
    refine (if_neg ?_).symm
    rintro ⟨rest, hrest⟩
    exact h rest hrest.symm

/-! ## Rows of digits -/

/-- a row of characters is a row of digits, or breaks off at the first character that is none -/
theorem digits_or_break (cs : List Char) :
    (∃ bs : List Bit, cs = bs.map Bit.toChar) ∨
      ∃ (bs : List Bit) (c : Char) (rest : List Char), cs = bs.map Bit.toChar ++ c :: rest ∧ ¬Bit.IsDigit c := by
  induction cs with
  | nil => exact .inl ⟨[], rfl⟩
  | cons c cs ih =>
    by_cases hc : Bit.IsDigit c
    · obtain ⟨b, rfl⟩ := (Bit.isDigit_iff c).1 hc
      rcases ih with ⟨bs, rfl⟩ | ⟨bs, d, rest, rfl, hd⟩
      · exact .inl ⟨b :: bs, rfl⟩
      · exact .inr ⟨b :: bs, d, rest, rfl, hd⟩
    · exact .inr ⟨[], c, cs, rfl, hc⟩

theorem readBits_digits (bs : List Bit) : readBits (bs.map Bit.toChar) = .ok bs := by
  induction bs with
  | nil => rfl
  | cons b bs ih => rw [List.map_cons, readBits, Bit.ofChar?_toChar, ih]; rfl

theorem readBits_break (bs : List Bit) {c : Char} (hc : ¬Bit.IsDigit c) (rest : List Char) :
    readBits (bs.map Bit.toChar ++ c :: rest) = .error (.invalidChar c) := by
  induction bs with
  | nil => rw [List.map_nil, List.nil_append, readBits, (Bit.ofChar?_eq_none_iff c).2 hc]
  | cons b bs ih => rw [List.map_cons, List.cons_append, readBits, Bit.ofChar?_toChar, ih]; rfl

theorem readBits_eq_ok_iff (cs : List Char) (bs : List Bit) : readBits cs = .ok bs ↔ cs = bs.map Bit.toChar := by
  constructor
  · intro h
    rcases digits_or_break cs with ⟨bs', rfl⟩ | ⟨bs', c, rest, rfl, hc⟩
    · rw [readBits_digits] at h
      cases h
      rfl
    · rw [readBits_break bs' hc] at h
      cases h
  · rintro rfl
    exact readBits_digits bs

theorem readBits_eq_error_iff (cs : List Char) (e : ParseError) :
    readBits cs = .error e ↔
      ∃ (bs : List Bit) (c : Char) (rest : List Char),
        cs = bs.map Bit.toChar ++ c :: rest ∧ ¬Bit.IsDigit c ∧ e = .invalidChar c := by
  constructor
  · intro h
    rcases digits_or_break cs with ⟨bs, rfl⟩ | ⟨bs, c, rest, rfl, hc⟩
    · rw [readBits_digits] at h
      cases h
    · rw [readBits_break bs hc] at h
      cases h
      exact ⟨bs, c, rest, rfl, hc, rfl⟩
  · rintro ⟨bs, c, rest, rfl, hc, rfl⟩
    exact readBits_break bs hc rest

/-! ## Reading -/

theorem parseChars_eq_ok_iff (cs : List Char) (o : Octet) :
    parseChars cs = .ok o ↔ (digitsOf cs).length = 8 ∧ readBits (digitsOf cs).reverse = .ok o.bits := by
  obtain ⟨bits, width⟩ := o
  unfold parseChars
  dsimp only
  split_ifs with hw
  · split
    · next e he => simp [he]
    · next bits' hbits => simp [hw, hbits]
  · simp [hw]

theorem parseChars_eq_error_iff (cs : List Char) (e : ParseError) :
    parseChars cs = .error e ↔
      (digitsOf cs).length ≠ 8 ∧ e = .wrongLength (digitsOf cs).length ∨
        (digitsOf cs).length = 8 ∧ readBits (digitsOf cs).reverse = .error e := by
  unfold parseChars
  dsimp only
  split_ifs with hw
  · split
    · next e' he => simp [hw, he]
    · next bits hbits => simp [hw, hbits]
  · simp [hw, eq_comm]

theorem length_toList_text (o : Octet) : o.text.toList.length = 8 := by
  rw [toList_text, List.length_reverse, List.length_map, o.width]

theorem isDigit_of_mem_text {o : Octet} {c : Char} (h : c ∈ o.text.toList) : Bit.IsDigit c := by
  rw [toList_text, List.mem_reverse, List.mem_map] at h
  obtain ⟨b, -, rfl⟩ := h
  exact (Bit.isDigit_iff _).2 ⟨b, rfl⟩

/-- **An octet is read exactly if it is what counts of the text.** -/
theorem parse_eq_ok_iff (s : String) (o : Octet) : parse s = .ok o ↔ o.text.toList = counted s := by
  rw [parse, parseChars_eq_ok_iff, digitsOf_eq, readBits_eq_ok_iff, List.reverse_eq_iff, ← toList_text]
  refine ⟨fun h => h.2.symm, fun h => ⟨?_, h.symm⟩⟩
  rw [← h, length_toList_text]

/-- **Otherwise the error says what is wrong**: the number of characters, or the rightmost one that is no bit. -/
theorem parse_eq_error_iff (s : String) (e : ParseError) : parse s = .error e ↔ Fault (counted s) e := by
  rw [parse, parseChars_eq_error_iff, digitsOf_eq, readBits_eq_error_iff]
  constructor
  · rintro (⟨hl, rfl⟩ | ⟨hl, bs, c, rest, hcs, hc, rfl⟩)
    · exact .wrongLength hl
    · refine @Fault.invalidChar _ rest.reverse (bs.map Bit.toChar).reverse c hl ?_ hc fun d hd => ?_
      · rw [← List.reverse_inj, hcs]
        simp
      · obtain ⟨b, -, rfl⟩ := List.mem_map.1 (List.mem_reverse.1 hd)
        exact (Bit.isDigit_iff _).2 ⟨b, rfl⟩
  · rintro (hl | ⟨hl, hcs, hc, hafter⟩)
    · exact .inl ⟨hl, rfl⟩
    · next before after c =>
      -- all characters after the one that is no bit are bits, so reading from the right gets up to it
      rcases digits_or_break after.reverse with ⟨bs, hbs⟩ | ⟨bs, d, rest, hd, hno⟩
      · exact .inr ⟨hl, bs, c, before.reverse, by rw [hcs, ← hbs]; simp, hc, rfl⟩
      · refine absurd (hafter d (List.mem_reverse.1 ?_)) hno
        rw [hd]
        simp

/-- the eight characters of an octet stand for the number of its byte -/
theorem binaryValue_text (o : Octet) : binaryValue o.text.toList = o.toByte.toNat := by
  have hdigit : ∀ b : Bit, (if b.toChar = '1' then 1 else 0) = b.toNat := by
    intro b
    cases b <;> rfl
  rw [binaryValue, toList_text, List.reverse_reverse, List.map_map, toNat_toByte, Bit.value_eq_ofDigits]
  exact congrArg _ (List.map_congr_left fun b _ => hdigit b)

/-- eight binary digits are the text of an octet -/
theorem exists_text_eq {cs : List Char} (hl : cs.length = 8) (hcs : ∀ c ∈ cs, Bit.IsDigit c) :
    ∃ o : Octet, o.text.toList = cs := by
  rcases digits_or_break cs.reverse with ⟨bs, hbs⟩ | ⟨bs, c, rest, hc, hno⟩
  · have hw : bs.length = 8 := by
      have h := congrArg List.length hbs
      rwa [List.length_reverse, List.length_map, hl, eq_comm] at h
    refine ⟨⟨bs, hw⟩, ?_⟩
    rw [toList_text, ← hbs, List.reverse_reverse]
  · refine absurd (hcs c (List.mem_reverse.1 ?_)) hno
    rw [hc]
    simp

/-! ## Spellings -/

variable {o : Octet} {digits mark : List Char}

/-- between the digits of an octet stand underscores only -/
theorem isDigit_or_underscore (h : digits.filter (· ≠ '_') = o.text.toList) {c : Char} (hc : c ∈ digits) :
    Bit.IsDigit c ∨ c = '_' := by
  by_cases hu : c = '_'
  · exact .inr hu
  · refine .inl (isDigit_of_mem_text (o := o) ?_)
    rw [← h]
    exact List.mem_filter.2 ⟨hc, by simpa using hu⟩

/-- a digit, an underscore and a mark are no blanks -/
theorem isBlank_of_mem_spelling (hmark : mark = [] ∨ mark = ['0', 'b'])
    (hdigits : digits.filter (· ≠ '_') = o.text.toList) {c : Char} (hc : c ∈ mark ++ digits) :
    Text.isBlank c = false := by
  rcases List.mem_append.1 hc with hc | hc
  · rcases hmark with rfl | rfl
    · cases hc
    · rcases List.mem_pair.1 hc with rfl | rfl <;> rfl
  · rcases isDigit_or_underscore hdigits hc with (rfl | rfl) | rfl <;> rfl

/-- a mark is taken away, and the digits themselves begin with none -/
theorem unmarked_mark_append (hmark : mark = [] ∨ mark = ['0', 'b'])
    (hdigits : digits.filter (· ≠ '_') = o.text.toList) : unmarked (mark ++ digits) = digits := by
  rcases hmark with rfl | rfl
  · refine if_neg ?_
    rintro ⟨rest, hrest⟩
    have hb : 'b' ∈ digits := by
      rw [List.nil_append] at hrest
      rw [← hrest]
      simp
    rcases isDigit_or_underscore hdigits hb with (h | h) | h <;> cases h
  · exact if_pos (List.prefix_append _ _)

theorem exists_eq_mark_append (cs : List Char) :
    ∃ mark, (mark = [] ∨ mark = ['0', 'b']) ∧ cs = mark ++ unmarked cs := by
  unfold unmarked
  split_ifs with hp
  · obtain ⟨rest, rfl⟩ := hp
    exact ⟨_, .inr rfl, rfl⟩
  · exact ⟨[], .inl rfl, rfl⟩

/-- **The spellings of an octet are the texts of which just the octet counts.** -/
theorem spelling_iff (o : Octet) (s : String) : Spelling o s ↔ o.text.toList = counted s := by
  constructor
  · rintro ⟨hbefore, hmark, hdigits, hafter⟩
    rw [counted, String.toList_ofList, Text.trim_append_blanks hafter, Text.trim_blanks_append hbefore,
      Text.trim_of_forall fun c => isBlank_of_mem_spelling hmark hdigits, unmarked_mark_append hmark hdigits, hdigits]
  · intro h
    obtain ⟨before, after, hs, hbefore, hafter⟩ := Text.exists_eq_append_trim s.toList
    obtain ⟨mark, hmark, htrim⟩ := exists_eq_mark_append (Text.trim s.toList)
    have hspelled := Spelling.mk hbefore hmark h.symm hafter
    rwa [← htrim, ← hs, String.ofList_toList] at hspelled

/-! ## Texts and documents -/

/-- **What is read are the spellings.** -/
theorem parse_eq_ok_iff_spelling (s : String) (o : Octet) : parse s = .ok o ↔ Spelling o s :=
  (parse_eq_ok_iff s o).trans (spelling_iff o s).symm

/-- an octet is written in one of its spellings -/
theorem spelling_text (o : Octet) : Spelling o o.text := by
  have hdigits : o.text.toList.filter (· ≠ '_') = o.text.toList := by
    refine List.filter_eq_self.2 fun c hc => ?_
    rcases isDigit_of_mem_text hc with rfl | rfl <;> rfl
  have h := @Spelling.mk o [] [] _ [] (by simp) (.inl rfl) hdigits (by simp)
  rwa [List.nil_append, List.nil_append, List.append_nil, String.ofList_toList] at h

/-- a quoted text is read as an octet if it is a spelling of it -/
theorem ofJson?_str_eq_some_iff (s : String) (o : Octet) : ofJson? (.str s) = some o ↔ Spelling o s := by
  rw [← parse_eq_ok_iff_spelling]
  show (parse s).toOption = some o ↔ _
  cases parse s <;> simp [Except.toOption]

theorem ofJson?_toJson (o : Octet) : ofJson? o.toJson = some o :=
  (ofJson?_str_eq_some_iff o.text o).2 o.spelling_text

/-- nothing has to be escaped in the text of an octet -/
theorem flatMap_escapeChar_text (o : Octet) : o.text.toList.flatMap Json.escapeChar = o.text.toList := by
  have hplain : ∀ c ∈ o.text.toList, Json.escapeChar c = [c] := by
    intro c hc
    rcases isDigit_of_mem_text hc with rfl | rfl <;> rfl
  rw [List.flatMap_congr hplain, List.flatMap_singleton']

/-- the document of an octet is its text between quotes -/
theorem compact_toJson (o : Octet) : o.toJson.compact = "\"" ++ o.text ++ "\"" := by
  have hquote : Json.quote o.text = '"' :: o.text.toList ++ ['"'] := by rw [Json.quote, flatMap_escapeChar_text]
  refine String.toList_inj.1 ?_
  show (String.ofList (Json.quote o.text)).toList = _
  simp [hquote]

/-- **An octet is read from exactly its spellings.** Let `counted s` be what is left of a text when it is trimmed, then
freed of one mark `0b` in front, and then of all underscores.
1. The text is read exactly if these are eight binary digits.
2. The octet is then written as these, and its byte is the number that they stand for.
3. Otherwise the error is their number if that is not eight, and else the rightmost of them that is no digit.
4. What is read as an octet are its digits, bare or with a mark in front, with any underscores after the mark and any
blanks around.
5. The same holds of a document that is the text, quoted as JSON.
6. The document of an octet is its own text, which is quoted as it is, and from that the octet is read back. -/
theorem parses_exactly_its_spellings (s : String) :
    ((∃ o, parse s = .ok o) ↔ (counted s).length = 8 ∧ ∀ c ∈ counted s, c = '0' ∨ c = '1') ∧
    (∀ o, parse s = .ok o → o.text.toList = counted s ∧ o.toByte.toNat = binaryValue (counted s)) ∧
    (∀ e, parse s = .error e ↔ Fault (counted s) e) ∧
    (∀ o, parse s = .ok o ↔ Spelling o s) ∧
    Json.read (Json.str s).compact = some (.str s) ∧ (∀ o, ofJson? (.str s) = some o ↔ Spelling o s) ∧
    ∀ o, toJson o = .str o.text ∧ (toJson o).compact = "\"" ++ o.text ++ "\"" ∧
      Json.read (toJson o).compact = some (toJson o) ∧ ofJson? (toJson o) = some o := by
  refine ⟨⟨?_, ?_⟩, fun o h => ?_, parse_eq_error_iff s, parse_eq_ok_iff_spelling s, Json.read_compact rfl,
    ofJson?_str_eq_some_iff s, fun o => ⟨rfl, o.compact_toJson, Json.read_compact rfl, o.ofJson?_toJson⟩⟩
  · rintro ⟨o, h⟩
    rw [← (parse_eq_ok_iff s o).1 h]
    exact ⟨o.length_toList_text, fun c => isDigit_of_mem_text⟩
  · rintro ⟨hl, hv⟩
    obtain ⟨o, ho⟩ := exists_text_eq hl hv
    exact ⟨o, (parse_eq_ok_iff s o).2 ho⟩
  · have hv : o.text.toList = counted s := (parse_eq_ok_iff s o).1 h
    exact ⟨hv, by rw [← hv, binaryValue_text]⟩

/-- the mark has to come first, and of two faults the right one is reported -/
example : (parse "\u2003 0b_1000__0000 ").map toByte = .ok 128 ∧ parse "_0b10000000" = .error (.wrongLength 10) ∧
    parse "0x00000y" = .error (.invalidChar 'y') := by decide

end Octet

end ByteMachine
