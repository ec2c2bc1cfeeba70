/-
Which texts are values on a command line.

A byte is a numeral: a hexadecimal one behind the mark `0x`, a binary one behind the mark `0b`, a decimal one without a
mark. The letter of a mark may be a capital, any number of underscores may stand behind a binary mark, and a plus sign
may stand in front of the digits. Letters are no decimal digits, so a text with a mark is read in one way only. The
bound is asked for the number, not for the length of the numeral, so there may be any zeros in front.

An assignment is cut at its first equals sign. The index in front of it is looked into before the byte behind it.

Contents:
- `SpellsByte`: the texts of a byte, and the numbers that they stand for;
- `readByte_eq_ok_iff`, `readByte_eq_error_iff`: when a byte is read, and what is said of a text that is none;
- `splitAssignment_append`: an assignment is cut at its first equals sign;
- `AssignmentFault`: why a text is no assignment.

Main statement: `arguments_read_exactly`.
-/
import Mathlib.Tactic
import ByteMachine.Command.Value
import ByteMachine.Proofs.Text.Numerals

namespace ByteMachine

/-! ## Bytes -/

/-- a text, without blanks around it, that stands for `n` -/
inductive SpellsByte : List Char → ℕ → Prop
  | hexadecimal {mark : Char} {cs : List Char} {n : ℕ} (hmark : mark = 'x' ∨ mark = 'X') (h : Text.Numeral 16 cs n) :
      SpellsByte ('0' :: mark :: cs) n
  /-- no underscore counts -/
  | binary {mark : Char} {cs : List Char} {n : ℕ} (hmark : mark = 'b' ∨ mark = 'B')
      (h : Text.Numeral 2 (cs.filter (· != '_')) n) : SpellsByte ('0' :: mark :: cs) n
  | decimal {cs : List Char} {n : ℕ} (h : Text.Numeral 10 cs n) : SpellsByte cs n

/-- **The numbers below 256 are read as they are spelled.** -/
theorem readByteDigits_eq_ok_iff (cs : List Char) (n : ℕ) :
    readByteDigits cs = .ok n ↔ SpellsByte cs n ∧ n < 256 := by
  constructor
  · intro h
    unfold readByteDigits at h
    split at h
    · obtain ⟨hn, hlt⟩ := (Text.readUnsigned_eq_ok_iff (by decide) (by decide)).1 h
      exact ⟨.hexadecimal (.inl rfl) hn, hlt⟩
    · obtain ⟨hn, hlt⟩ := (Text.readUnsigned_eq_ok_iff (by decide) (by decide)).1 h
      exact ⟨.hexadecimal (.inr rfl) hn, hlt⟩
    · obtain ⟨hn, hlt⟩ := (Text.readUnsigned_eq_ok_iff (by decide) (by decide)).1 h
      exact ⟨.binary (.inl rfl) hn, hlt⟩
    · obtain ⟨hn, hlt⟩ := (Text.readUnsigned_eq_ok_iff (by decide) (by decide)).1 h
      exact ⟨.binary (.inr rfl) hn, hlt⟩
    · obtain ⟨hn, hlt⟩ := (Text.readUnsigned_eq_ok_iff (by decide) (by decide)).1 h
      exact ⟨.decimal hn, hlt⟩
  · rintro ⟨h, hlt⟩
    cases h with
    | hexadecimal hmark h =>
      have hread := (Text.readUnsigned_eq_ok_iff (by decide) (by decide)).2 ⟨h, hlt⟩
      rcases hmark with rfl | rfl
      · exact hread
      · exact hread
    | binary hmark h =>
      have hread := (Text.readUnsigned_eq_ok_iff (by decide) (by decide)).2 ⟨h, hlt⟩
      rcases hmark with rfl | rfl
      · exact hread
      · exact hread
    | decimal h =>
      -- the letters of the marks are not among its digits
      unfold readByteDigits
      split
      · exact absurd (by simp) (h.not_mem (c := 'x') (by decide) (by decide))
      · exact absurd (by simp) (h.not_mem (c := 'X') (by decide) (by decide))
      · exact absurd (by simp) (h.not_mem (c := 'b') (by decide) (by decide))
      · exact absurd (by simp) (h.not_mem (c := 'B') (by decide) (by decide))
      · exact (Text.readUnsigned_eq_ok_iff (by decide) (by decide)).2 ⟨h, hlt⟩

/-- **A byte is read exactly if the trimmed text spells it.** -/
theorem readByte_eq_ok_iff (s : String) (v : UInt8) :
    readByte s = .ok v ↔ SpellsByte (Text.trim s.toList) v.toNat := by
  unfold readByte
  dsimp only
  constructor
  · intro h
    split at h
    · next n hn =>
      cases h
      obtain ⟨hs, hlt⟩ := (readByteDigits_eq_ok_iff _ n).1 hn
      rwa [UInt8.toNat_ofNat_of_lt' hlt]
    · cases h
  · intro h
    rw [(readByteDigits_eq_ok_iff _ _).2 ⟨h, v.toNat_lt⟩]
    dsimp only
    rw [UInt8.ofNat_toNat]

/-- **A text that spells no byte is named by the error**, without the blanks around it. -/
theorem readByte_eq_error_iff (s : String) (e : ValueError) :
    readByte s = .error e ↔ (∀ n ≤ 255, ¬SpellsByte (Text.trim s.toList) n) ∧ e = .notByte (Text.trimmed s) := by
  unfold readByte Text.trimmed
  dsimp only
  cases hr : readByteDigits (Text.trim s.toList) with
  | ok n =>
    obtain ⟨hs, hlt⟩ := (readByteDigits_eq_ok_iff _ n).1 hr
    apply iff_of_false
    · simp
    · rintro ⟨hnone, -⟩
      exact hnone n (by omega) hs
  | error fault =>
    have hnone : ∀ n ≤ 255, ¬SpellsByte (Text.trim s.toList) n := by
      intro n hn hs
      rw [(readByteDigits_eq_ok_iff _ n).2 ⟨hs, by omega⟩] at hr
      cases hr
    rw [Except.error.injEq, eq_comm]
    exact (and_iff_right hnone).symm

/-! ## Assignments -/

/-- **An assignment is cut at its first equals sign.** -/
theorem splitAssignment_append {before : List Char} (hb : '=' ∉ before) (after : List Char) :
    splitAssignment (before ++ '=' :: after) = some (before, after) := by
  induction before with
  | nil => rfl
  | cons c before ih =>
    obtain ⟨hc, hrest⟩ := not_or.1 (mt List.mem_cons.2 hb)
    rw [List.cons_append, splitAssignment, ih hrest]
    · rfl
    · exact fun h => hc h.symm

theorem splitAssignment_of_not_mem {cs : List Char} (h : '=' ∉ cs) : splitAssignment cs = none := by
  induction cs with
  | nil => rfl
  | cons c cs ih =>
    obtain ⟨hc, hrest⟩ := not_or.1 (mt List.mem_cons.2 h)
    rw [splitAssignment, ih hrest]
    · rfl
    · exact fun h => hc h.symm

/-- why a text is no assignment; what stands in front of the first equals sign is looked into first -/
inductive AssignmentFault (s : String) : ValueError → Prop
  | unassigned (h : '=' ∉ s.toList) : AssignmentFault s (.notAssignment s)
  | index {before after : List Char} (hs : s.toList = before ++ '=' :: after) (hb : '=' ∉ before)
      (h : ∀ n < 2 ^ 64, ¬Text.Numeral 10 (Text.trim before) n) : AssignmentFault s (.notIndex (String.ofList before))
  | byte {before after : List Char} {n : ℕ} (hs : s.toList = before ++ '=' :: after) (hb : '=' ∉ before)
      (hn : Text.Numeral 10 (Text.trim before) n) (hlt : n < 2 ^ 64)
      (h : ∀ v ≤ 255, ¬SpellsByte (Text.trim after) v) :
      AssignmentFault s (.notByte (String.ofList (Text.trim after)))

/-- the index of an assignment, trimmed, is a decimal number of 64 bits -/
theorem readIndex_eq_ok_iff (cs : List Char) (n : ℕ) :
    Text.readUnsigned 10 Text.bound64 (Text.trim cs) = .ok n ↔ Text.Numeral 10 (Text.trim cs) n ∧ n < 2 ^ 64 :=
  Text.readUnsigned_eq_ok_iff (by decide) (by decide)

/-- what is read of a text that is cut, when its index is read -/
theorem readAssignment_of_index {s : String} {before after : List Char} {n : ℕ}
    (hs : s.toList = before ++ '=' :: after) (hb : '=' ∉ before)
    (hn : Text.readUnsigned 10 Text.bound64 (Text.trim before) = .ok n) :
    readAssignment s = (readByte (String.ofList after)).map fun b => (n, b) := by
  rw [readAssignment, hs, splitAssignment_append hb]
  dsimp only
  rw [hn]

theorem readAssignment_of_no_index {s : String} {before after : List Char}
    (hs : s.toList = before ++ '=' :: after) (hb : '=' ∉ before)
    (h : ∀ n < 2 ^ 64, ¬Text.Numeral 10 (Text.trim before) n) :
    readAssignment s = .error (.notIndex (String.ofList before)) := by
  rw [readAssignment, hs, splitAssignment_append hb]
  dsimp only
  cases hn : Text.readUnsigned 10 Text.bound64 (Text.trim before) with
  | error e => rfl
  | ok n =>
    obtain ⟨hnum, hlt⟩ := (readIndex_eq_ok_iff before n).1 hn
    exact absurd hnum (h n hlt)

/-- every text has no equals sign, or no index in front of the first one, or an index there -/
theorem assignment_cases (s : String) :
    '=' ∉ s.toList ∨ ∃ before after, s.toList = before ++ '=' :: after ∧ '=' ∉ before ∧
      ((∀ n < 2 ^ 64, ¬Text.Numeral 10 (Text.trim before) n) ∨
        ∃ n, Text.Numeral 10 (Text.trim before) n ∧ n < 2 ^ 64) := by
  by_cases hm : '=' ∈ s.toList
  · obtain ⟨before, after, hs, hb⟩ := List.eq_append_cons_of_mem hm
    refine .inr ⟨before, after, hs, hb, ?_⟩
    by_cases h : ∃ n, Text.Numeral 10 (Text.trim before) n ∧ n < 2 ^ 64
    · exact .inr h
    · exact .inl fun n hlt hn => h ⟨n, hn, hlt⟩
  · exact .inl hm

theorem readAssignment_of_not_mem {s : String} (h : '=' ∉ s.toList) : readAssignment s = .error (.notAssignment s) := by
  rw [readAssignment, splitAssignment_of_not_mem h]

/-- **An assignment is read exactly if there is an index in front of its first equals sign and a byte behind it.** -/
theorem readAssignment_eq_ok_iff (s : String) (n : ℕ) (v : UInt8) :
    readAssignment s = .ok (n, v) ↔
      ∃ before after, s.toList = before ++ '=' :: after ∧ '=' ∉ before ∧
        Text.Numeral 10 (Text.trim before) n ∧ n < 2 ^ 64 ∧ readByte (String.ofList after) = .ok v := by
  constructor
  · intro h
    rcases assignment_cases s with hm | ⟨before, after, hs, hb, hnone | ⟨k, hk, hlt⟩⟩
    · rw [readAssignment_of_not_mem hm] at h
      cases h
    · rw [readAssignment_of_no_index hs hb hnone] at h
      cases h
    · rw [readAssignment_of_index hs hb ((readIndex_eq_ok_iff before k).2 ⟨hk, hlt⟩)] at h
      cases hv : readByte (String.ofList after) with
      | error e =>
        rw [hv] at h
        cases h
      | ok b =>
        rw [hv] at h
        cases h
        exact ⟨before, after, hs, hb, hk, hlt, hv⟩
  · rintro ⟨before, after, hs, hb, hn, hlt, hv⟩
    rw [readAssignment_of_index hs hb ((readIndex_eq_ok_iff before n).2 ⟨hn, hlt⟩), hv]
    rfl

/-- **Otherwise the error says what is wrong.** -/
theorem readAssignment_eq_error_iff (s : String) (e : ValueError) :
    readAssignment s = .error e ↔ AssignmentFault s e := by
  constructor
  · intro h
    rcases assignment_cases s with hm | ⟨before, after, hs, hb, hnone | ⟨k, hk, hlt⟩⟩
    · rw [readAssignment_of_not_mem hm] at h
      cases h
      exact .unassigned hm
    · rw [readAssignment_of_no_index hs hb hnone] at h
      cases h
      exact .index hs hb hnone
    · rw [readAssignment_of_index hs hb ((readIndex_eq_ok_iff before k).2 ⟨hk, hlt⟩)] at h
      cases hv : readByte (String.ofList after) with
      | error e' =>
        rw [hv] at h
        cases h
        obtain ⟨hnone, rfl⟩ := (readByte_eq_error_iff _ _).1 hv
        rw [Text.trimmed, String.toList_ofList]
        rw [String.toList_ofList] at hnone
        exact .byte hs hb hk hlt hnone
      | ok b =>
        rw [hv] at h
        cases h
  · intro h
    cases h with
    | unassigned hm => exact readAssignment_of_not_mem hm
    | index hs hb hnone => exact readAssignment_of_no_index hs hb hnone
    | @byte before after n hs hb hn hlt hnone =>
      have hv : readByte (String.ofList after) = .error (.notByte (Text.trimmed (String.ofList after))) := by
        refine (readByte_eq_error_iff _ _).2 ⟨?_, rfl⟩
        rwa [String.toList_ofList]
      rw [readAssignment_of_index hs hb ((readIndex_eq_ok_iff before n).2 ⟨hn, hlt⟩), hv, Text.trimmed,
        String.toList_ofList]
      rfl

/-! ## Arguments -/

/-- **Arguments are read exactly.**
1. A text is read as a byte exactly if it spells that byte when it is trimmed: a hexadecimal numeral behind a mark, a
binary one behind a mark, where underscores do not count, or a decimal one.
2. If it spells no number up to 255, it is refused, and the error names the trimmed text.
3. A text is read as an assignment exactly if there is an equals sign in it, the text in front of the first one is, when
it is trimmed, a decimal numeral of 64 bits, and the text behind it is read as the byte.
4. Otherwise it is refused, and the error names what is missing, first the sign, then the index, then the byte. -/
theorem arguments_read_exactly (s : String) :
    (∀ v : UInt8, readByte s = .ok v ↔ SpellsByte (Text.trim s.toList) v.toNat) ∧
    (∀ e, readByte s = .error e ↔
      (∀ n ≤ 255, ¬SpellsByte (Text.trim s.toList) n) ∧ e = .notByte (Text.trimmed s)) ∧
    (∀ (n : ℕ) (v : UInt8), readAssignment s = .ok (n, v) ↔
      ∃ before after, s.toList = before ++ '=' :: after ∧ '=' ∉ before ∧
        Text.Numeral 10 (Text.trim before) n ∧ n < 2 ^ 64 ∧ readByte (String.ofList after) = .ok v) ∧
    ∀ e, readAssignment s = .error e ↔ AssignmentFault s e :=
  ⟨readByte_eq_ok_iff s, readByte_eq_error_iff s, readAssignment_eq_ok_iff s, readAssignment_eq_error_iff s⟩

/-- a sign among underscores, zeros in front of a hexadecimal numeral, and a second equals sign -/
example : readByte " 0b_+1111__1111\u2003" = .ok 255 ∧ readByte "0X000fF" = .ok 255 ∧
    readByte "0x_1" = .error (.notByte "0x_1") ∧ readAssignment " +07 =0b1" = .ok (7, 1) ∧
    readAssignment "1=2=3" = .error (.notByte "2=3") := by decide

end ByteMachine
