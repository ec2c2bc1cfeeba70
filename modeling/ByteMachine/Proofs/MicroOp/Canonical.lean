/-
Canonical texts decode to what they were made from.

A statement is compared by its key, and the key of a canonical text is the key that the micro-operation has in the first
place: blanks go, letters become capitals, and a numeral passes as it is. What is no transfer is its own trimmed text,
and trimming takes away nothing but blanks, which no key contains. So decoding, writing and decoding again is decoding
once, and a program can be written anew without changing what its statements are.

Contents:
- `key_trimmed`, `key_numeral`: keys of trimmed texts and of texts with a numeral in them;
- `register?_registerName`, `lt_of_register?`: registers are read back, up to 64 bits and no further;
- `ofKey?_cases`: the micro-operations that have a key;
- `Program.ops`, `Program.respelled`: the micro-operations of a program, and the program written anew.

Main statements:
- `decode_text_decode`: decoding the canonical text of what was decoded gives it again;
- `Program.ops_respelled`: a program written anew has the same micro-operations.
-/
import Mathlib.Tactic
import ByteMachine.Program

namespace ByteMachine

/-! ## Blanks and digits -/

namespace Text

theorem filter_dropWhile_not (p : Char → Bool) (cs : List Char) :
    (cs.dropWhile p).filter (fun c => !p c) = cs.filter fun c => !p c := by
  induction cs with
  | nil => rfl
  | cons c cs ih => by_cases h : p c <;> simp [h, ih]

/-- trimming takes away nothing but blanks -/
theorem squeeze_trim (cs : List Char) : squeeze (trim cs) = squeeze cs := by
  unfold trim trimEnd trimStart squeeze
  rw [List.filter_reverse, filter_dropWhile_not, List.filter_reverse, List.reverse_reverse, filter_dropWhile_not]

theorem squeeze_append (cs ds : List Char) : squeeze (cs ++ ds) = squeeze cs ++ squeeze ds :=
  List.filter_append cs ds

theorem toNat_of_isDigit {c : Char} (h : isDigit c = true) : 48 ≤ c.toNat ∧ c.toNat ≤ 57 := by
  simp only [isDigit, Bool.and_eq_true, decide_eq_true_eq, Char.le_def, UInt32.le_iff_toNat_le] at h
  exact h

theorem isBlank_of_isDigit {c : Char} (h : isDigit c = true) : isBlank c = false := by
  obtain ⟨h1, h2⟩ := toNat_of_isDigit h
  simp [isBlank, blankRanges]
  omega

theorem upperChar_of_isDigit {c : Char} (h : isDigit c = true) : upperChar c = [c] := by
  obtain ⟨h1, h2⟩ := toNat_of_isDigit h
  have hn : ¬('a'.val ≤ c.val ∧ c.val ≤ 'z'.val) := by
    rintro ⟨ha, -⟩
    have ha' : 97 ≤ c.toNat := ha
    omega
  have hu : c.toUpper = c := dif_neg hn
  rw [upperChar_of_ascii (by omega), hu]

theorem squeeze_digits {ds : List Char} (h : ∀ d ∈ ds, isDigit d = true) : squeeze ds = ds := by
  unfold squeeze
  rw [List.filter_eq_self]
  intro d hd
  simp [isBlank_of_isDigit (h d hd)]

theorem upper_digits {ds : List Char} (h : ∀ d ∈ ds, isDigit d = true) : upper ds = ds := by
  induction ds with
  | nil => rfl
  | cons d ds ih =>
    have hd := upperChar_of_isDigit (h d List.mem_cons_self)
    have hds := ih fun c hc => h c (List.mem_cons_of_mem d hc)
    rw [upper, List.flatMap_cons, hd, ← upper, hds]
    rfl

end Text

namespace MicroOp

/-! ## Keys -/

theorem joinArrows_of_not_mem {cs : List Char} (h : '<' ∉ cs) : joinArrows cs = cs := by
  fun_induction joinArrows cs with
  | case1 => rfl
  | case2 cs ih => simp at h
  | case3 c cs hc ih => rw [ih fun hm => h (List.mem_cons_of_mem c hm)]

/-- a text has the key of the trimmed text -/
theorem key_trimmed (s : String) : key (Text.trimmed s).toList = key s.toList := by
  rw [key, key, Text.trimmed, String.toList_ofList, Text.squeeze_trim]

theorem decode_trimmed (s : String) : decode (Text.trimmed s) = decode s := by
  rw [decode, decode, key_trimmed, Text.trimmed_trimmed]

/-- a numeral passes into the key as it is, if there is no arrow around it that has to be joined -/
theorem key_numeral (n : ℕ) {before after : List Char} (hb : '<' ∉ Text.upper (Text.squeeze before))
    (ha : '<' ∉ Text.upper (Text.squeeze after)) :
    key (before ++ (Text.decimal n ++ after)) =
      Text.upper (Text.squeeze before) ++ (Text.decimal n ++ Text.upper (Text.squeeze after)) := by
  have hd : ∀ d ∈ Text.decimal n, Text.isDigit d = true := fun d => Text.isDigit_of_mem_decimal
  have hn : '<' ∉ Text.decimal n := fun hm => absurd (hd '<' hm) (by decide)
  have hs : Text.squeeze (before ++ (Text.decimal n ++ after)) =
      Text.squeeze before ++ (Text.decimal n ++ Text.squeeze after) := by
    rw [Text.squeeze_append, Text.squeeze_append, Text.squeeze_digits hd]
  rw [key, hs, Text.upper_append, Text.upper_append, Text.upper_digits hd]
  refine joinArrows_of_not_mem ?_
  simp [hb, ha, hn]

/-! ## Registers -/

theorem toList_registerName (n : ℕ) : (registerName n).toList = 'R' :: '[' :: (Text.decimal n ++ [']']) := by
  simp [registerName, Text.numeral]

theorem unbracket_bracketed (ds : List Char) : unbracket ('[' :: (ds ++ [']'])) = ds := by
  simp [unbracket]

/-- the name of a register is read back, up to 64 bits -/
theorem register?_registerName {n : ℕ} (h : n < Text.bound64) : register? (registerName n).toList = some n := by
  have hd : ∀ d ∈ Text.decimal n, Text.isDigit d = true := fun d => Text.isDigit_of_mem_decimal
  have hne : Text.decimal n ≠ [] := Nat.toDigits_ne_nil
  rw [toList_registerName, register?, unbracket_bracketed, if_pos ⟨hne, List.all_eq_true.2 hd⟩,
    Text.readDigits_toDigits _ _ n h]
  rfl

/-- no register beyond 64 bits is ever read -/
theorem lt_of_register? {cs : List Char} {n : ℕ} (h : register? cs = some n) : n < Text.bound64 := by
  unfold register? at h
  split at h
  · dsimp only at h
    split_ifs at h with hd
    cases hr : Text.readDigits 10 Text.bound64 .tooLarge 0 (unbracket ‹List Char›) with
    | error e =>
      rw [hr] at h
      cases h
    | ok k =>
      rw [hr] at h
      cases h
      exact Text.lt_of_readDigits hr (by decide)
  · cases h

theorem arrow_not_mem_registerName (n : ℕ) : '←' ∉ (registerName n).toList := by
  have hn : '←' ∉ Text.decimal n := fun hm => absurd (Text.isDigit_of_mem_decimal hm) (by decide)
  simp [toList_registerName, hn]

/-- a key that falls into two halves at its arrow, and is not one of the fixed keys, is read by its halves -/
theorem ofKey?_of_arrow {destination source : List Char} {op : MicroOp} (hd : '←' ∉ destination)
    (hf : ∀ entry ∈ fixedKeys, entry.1.toList ≠ destination ++ '←' :: source)
    (ht : registerTransfer? destination source = some op) : ofKey? (destination ++ '←' :: source) = some op := by
  have hp : ∀ c ∈ destination, (c != '←') = true := fun c hc => by
    rw [bne_iff_ne]
    rintro rfl
    exact hd hc
  have hn : fixedKeys.find? (fun entry => entry.1.toList == destination ++ '←' :: source) = none := by
    rw [List.find?_eq_none]
    intro entry he
    simpa using hf entry he
  unfold ofKey?
  rw [hn, List.takeWhile_append_of_pos hp, List.dropWhile_append_of_pos hp]
  simp [ht]

/-- a text with such a key is decoded by the halves of its key -/
theorem decode_of_arrow {s : String} {destination source : List Char} {op : MicroOp}
    (hk : key s.toList = destination ++ '←' :: source) (hd : '←' ∉ destination)
    (hf : ∀ entry ∈ fixedKeys, entry.1.toList ≠ destination ++ '←' :: source)
    (ht : registerTransfer? destination source = some op) : decode s = op := by
  rw [decode, hk, ofKey?_of_arrow hd hf ht, Option.getD_some]

/-- a register to one of the two buses -/
theorem decode_text_toBus {n : ℕ} (h : n < Text.bound64) {bus : Char} {op : MicroOp}
    (hb : bus = 'A' ∧ op = .busAFromRegister n ∨ bus = 'B' ∧ op = .busBFromRegister n) : decode op.text = op := by
  have ht : op.text.toList = (bus :: " ← R[".toList) ++ (Text.decimal n ++ "]".toList) := by
    rcases hb with ⟨rfl, rfl⟩ | ⟨rfl, rfl⟩ <;> simp [text, registerName, Text.numeral]
  have hk : key op.text.toList = [bus] ++ '←' :: (registerName n).toList := by
    rw [ht, toList_registerName]
    rcases hb with ⟨rfl, -⟩ | ⟨rfl, -⟩ <;> exact key_numeral n (by decide) (by decide)
  refine decode_of_arrow hk ?_ ?_ ?_
  · rcases hb with ⟨rfl, -⟩ | ⟨rfl, -⟩ <;> decide
  · rcases hb with ⟨rfl, -⟩ | ⟨rfl, -⟩ <;> simp [fixedKeys]
  · rcases hb with ⟨rfl, rfl⟩ | ⟨rfl, rfl⟩ <;> simp [registerTransfer?, register?_registerName h]

/-- the result to a register -/
theorem decode_text_registerFromAlu {n : ℕ} (h : n < Text.bound64) :
    decode (text (.registerFromAlu n)) = .registerFromAlu n := by
  have ht : (text (.registerFromAlu n)).toList = "R[".toList ++ (Text.decimal n ++ "] ← ALU".toList) := by
    simp [text, registerName, Text.numeral]
  have hb : Text.upper (Text.squeeze "R[".toList) = ['R', '['] := by decide
  have ha : Text.upper (Text.squeeze "] ← ALU".toList) = [']', '←', 'A', 'L', 'U'] := by decide
  have hk : key (text (.registerFromAlu n)).toList = (registerName n).toList ++ '←' :: ['A', 'L', 'U'] := by
    rw [ht, key_numeral n (by decide) (by decide), toList_registerName, hb, ha]
    simp
  refine decode_of_arrow hk (arrow_not_mem_registerName n) ?_ ?_
  · simp [fixedKeys, toList_registerName]
  · have hr := register?_registerName h
    rw [toList_registerName] at hr ⊢
    simp [registerTransfer?, hr]

/-! ## What can be decoded -/

/-- the micro-operations that have a key: nine of them, and three for each register of at most 64 bits -/
theorem ofKey?_cases {k : List Char} {op : MicroOp} (h : ofKey? k = some op) :
    (∃ entry ∈ fixedKeys, op = entry.2) ∨
      ∃ n < Text.bound64, op = .busAFromRegister n ∨ op = .busBFromRegister n ∨ op = .registerFromAlu n := by
  unfold ofKey? at h
  split at h
  · next spelling found hf =>
    cases h
    exact .inl ⟨_, List.mem_of_find?_eq_some hf, rfl⟩
  · split at h
    · cases h
    · unfold registerTransfer? at h
      split_ifs at h
      · obtain ⟨n, hn, rfl⟩ := Option.map_eq_some_iff.1 h
        exact .inr ⟨n, lt_of_register? hn, .inl rfl⟩
      · obtain ⟨n, hn, rfl⟩ := Option.map_eq_some_iff.1 h
        exact .inr ⟨n, lt_of_register? hn, .inr (.inl rfl)⟩
      · obtain ⟨n, hn, rfl⟩ := Option.map_eq_some_iff.1 h
        exact .inr ⟨n, lt_of_register? hn, .inr (.inr rfl)⟩

theorem decode_text_fixed : ∀ entry ∈ fixedKeys, decode entry.2.text = entry.2 := by decide

/-- **Decoding undoes writing** on everything that decoding can give: transfers, registers of up to 64 bits, and texts
that are no transfer. -/
theorem decode_text_decode (s : String) : decode (decode s).text = decode s := by
  cases hk : ofKey? (key s.toList) with
  | none =>
    have hs : decode s = .unknown (Text.trimmed s) := by rw [decode, hk, Option.getD_none]
    rw [hs]
    exact (decode_trimmed s).trans hs
  | some op =>
    have hs : decode s = op := by rw [decode, hk, Option.getD_some]
    rw [hs]
    rcases ofKey?_cases hk with ⟨entry, he, rfl⟩ | ⟨n, hn, rfl | rfl | rfl⟩
    · exact decode_text_fixed entry he
    · exact decode_text_toBus hn (.inl ⟨rfl, rfl⟩)
    · exact decode_text_toBus hn (.inr ⟨rfl, rfl⟩)
    · exact decode_text_registerFromAlu hn

end MicroOp

/-! ## Programs written anew -/

namespace Statement

theorem op_ofText (s : String) : (ofText s).op = MicroOp.decode s :=
  MicroOp.decode_trimmed s

theorem op_ofText_text_op (s : Statement) : (ofText s.op.text).op = s.op := by
  rw [op_ofText]
  exact MicroOp.decode_text_decode s.source

end Statement

namespace Program

/-- the micro-operations of the statements -/
def ops (p : Program) : List MicroOp :=
  p.statements.map Statement.op

/-- every statement as the canonical text of its micro-operation -/
def respelled (p : Program) : Program :=
  .ofTexts (p.ops.map MicroOp.text)

theorem getElem?_ops (p : Program) (i : ℕ) : p.ops[i]? = (p.statement? i).map Statement.op := by
  simp [ops, statement?]

theorem length_ops (p : Program) : p.ops.length = p.length := by
  simp [ops, length]

theorem isEmpty_ops (p : Program) : p.ops.isEmpty = p.isEmpty := by
  simp [ops, isEmpty]

/-- **A program written anew has the same micro-operations.** -/
theorem ops_respelled (p : Program) : p.respelled.ops = p.ops := by
  simp only [respelled, ops, ofTexts, List.map_map, Function.comp_def, Statement.op_ofText_text_op]

end Program

end ByteMachine
