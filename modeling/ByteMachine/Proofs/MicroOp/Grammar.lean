/-
The decoder accepts exactly its grammar.

The grammar speaks about keys. Nine of them are fixed spellings; the others have a register on one side of the arrow,
which is an R and a numeral, bare or in one pair of brackets. The decoder looks the key up, or cuts it at its first
arrow and reads the register; a key with a second arrow, a sign, another bracket, no digit, or a number of more than 64
bits is left over, because no numeral has such characters and no other shape is tried. What the key does not see, the
decoder does not see either: blanks, the case of ASCII letters, and the two spellings of the arrow.

Contents:
- `Text.digitsValue`, `IsNumeral`, `NamesRegister`, `Spells`: the grammar;
- `Respelling`, `Respelled`: changes of a text that are not seen in its key.

Main statements:
- `Text.readDigits_eq_ok_iff`: what is read from a row of digits, and when;
- `register?_eq_some_iff`, `ofKey?_eq_some_iff`: registers and keys are read as the grammar says;
- `Respelling.key_eq`, `Respelled.key_eq`: one such change, and any number of them, keep the key;
- `decodes_exactly_its_grammar`: what every text decodes to, and that such changes keep it.
-/
import Mathlib.Tactic
import ByteMachine.Proofs.MicroOp.Canonical
import ByteMachine.Proofs.Text.Numerals

namespace ByteMachine

/-! ## Numerals -/

namespace Text

/-- the value of a row of decimal digits, the most significant first -/
def digitsValue (ds : List Char) : ℕ :=
  Nat.ofDigits 10 (ds.reverse.map fun d => d.toNat - '0'.toNat)

/-- the ten digits are the digits of base ten, and letters are not -/
theorem digit?_ten (c : Char) : digit? 10 c = if isDigit c then some (c.toNat - '0'.toNat) else none := by
  unfold digit?
  split_ifs with hd hl hu
  · obtain ⟨h0, h9⟩ := toNat_of_isDigit hd
    have hzero : '0'.toNat = 48 := rfl
    rw [Option.filter_some, if_pos (decide_eq_true (by omega))]
  · simp
  · simp
  · rfl

/-- in the row of all digits, the ten come first, in the order of their code points -/
theorem digitValue_lt_ten_iff (c : Char) : digitValue c < 10 ↔ isDigit c = true := by
  have h := (digit?_eq (show 10 ≤ 16 by decide) c).symm.trans (digit?_ten c)
  split_ifs at h with hv hd hd
  · simp [hv, hd]
  · simp [hv, hd]

theorem digitValue_of_isDigit {c : Char} (hd : isDigit c = true) : digitValue c = c.toNat - '0'.toNat := by
  have h := (digit?_eq (show 10 ≤ 16 by decide) c).symm.trans (digit?_ten c)
  rw [if_pos hd, if_pos ((digitValue_lt_ten_iff c).2 hd)] at h
  exact Option.some.inj h

theorem rowValue_ten {ds : List Char} (h : ∀ d ∈ ds, isDigit d = true) : rowValue 10 ds = digitsValue ds := by
  rw [rowValue, digitsValue]
  refine congrArg (Nat.ofDigits 10) (List.map_congr_left fun d hd => ?_)
  exact digitValue_of_isDigit (h d (List.mem_reverse.1 hd))

/-- **A row of digits is read exactly if its value is below the bound**, and then as that value; a number that was read
before stands in front of it. -/
theorem readDigits_eq_ok_iff {bound acc n : ℕ} {beyond : NumeralError} {ds : List Char} (ha : acc < bound) :
    readDigits 10 bound beyond acc ds = .ok n ↔
      (∀ d ∈ ds, isDigit d = true) ∧ acc * 10 ^ ds.length + digitsValue ds = n ∧ n < bound := by
  rw [readDigits_eq_ok_iff_rowValue (by decide) ha]
  simp only [digitValue_lt_ten_iff]
  constructor
  · rintro ⟨hd, hv, hn⟩
    exact ⟨hd, by rw [← rowValue_ten hd]; exact hv, hn⟩
  · rintro ⟨hd, hv, hn⟩
    exact ⟨hd, by rw [rowValue_ten hd]; exact hv, hn⟩

end Text

namespace MicroOp

/-! ## Registers -/

/-- `ds` is a numeral with the value `n`: ASCII digits, at least one, with any zeros in front -/
structure IsNumeral (ds : List Char) (n : ℕ) : Prop where
  nonempty : ds ≠ []
  digits : ∀ d ∈ ds, Text.isDigit d = true
  value : Text.digitsValue ds = n

/-- the spellings of register `n`: R and a numeral of at most 64 bits, bare or in one pair of brackets -/
inductive NamesRegister : List Char → ℕ → Prop
  | bare {ds : List Char} {n : ℕ} (hd : IsNumeral ds n) (hn : n < 2 ^ 64) : NamesRegister ('R' :: ds) n
  | bracketed {ds : List Char} {n : ℕ} (hd : IsNumeral ds n) (hn : n < 2 ^ 64) :
      NamesRegister ('R' :: '[' :: (ds ++ [']'])) n

/-- either there are no brackets to be left out, or there is one pair around the rest -/
theorem eq_unbracket_or (cs : List Char) : cs = unbracket cs ∨ cs = '[' :: (unbracket cs ++ [']']) := by
  unfold unbracket
  split
  · split_ifs with hlast
    · right
      rw [List.dropLast_append_getLast? _ hlast]
    · exact .inl rfl
  · exact .inl rfl

theorem unbracket_digits {ds : List Char} (h : ∀ d ∈ ds, Text.isDigit d = true) : unbracket ds = ds := by
  unfold unbracket
  split
  · exact absurd (h '[' List.mem_cons_self) (by decide)
  · rfl

/-- what follows the R names a register exactly if it is a numeral of at most 64 bits without its brackets -/
theorem register?_cons {cs : List Char} {n : ℕ} :
    register? ('R' :: cs) = some n ↔ IsNumeral (unbracket cs) n ∧ n < 2 ^ 64 := by
  have hread : Text.readDigits 10 Text.bound64 .tooLarge 0 (unbracket cs) = .ok n ↔
      (∀ d ∈ unbracket cs, Text.isDigit d = true) ∧ Text.digitsValue (unbracket cs) = n ∧ n < 2 ^ 64 := by
    rw [Text.readDigits_eq_ok_iff (by decide), zero_mul, zero_add]
    rfl
  have hok : ∀ r : Except Text.NumeralError ℕ, r.toOption = some n ↔ r = .ok n := by
    rintro (e | k) <;> simp [Except.toOption]
  change (if unbracket cs ≠ [] ∧ (unbracket cs).all Text.isDigit then _ else none) = some n ↔ _
  split_ifs with h
  · rw [hok, hread]
    exact ⟨fun ⟨hd, hv, hn⟩ => ⟨⟨h.1, hd, hv⟩, hn⟩, fun ⟨hd, hn⟩ => ⟨hd.digits, hd.value, hn⟩⟩
  · refine iff_of_false nofun fun ⟨hd, _⟩ => h ⟨hd.nonempty, List.all_eq_true.2 hd.digits⟩

/-- **Registers are read as the grammar says.** -/
theorem register?_eq_some_iff {cs : List Char} {n : ℕ} : register? cs = some n ↔ NamesRegister cs n := by
  constructor
  · intro h
    cases cs with
    | nil => cases h
    | cons c rest =>
      obtain rfl : c = 'R' := by
        by_contra hc
        simp [register?, hc] at h
      obtain ⟨hd, hn⟩ := register?_cons.1 h
      rcases eq_unbracket_or rest with hrest | hrest
      · rw [hrest]
        exact .bare hd hn
      · rw [hrest]
        exact .bracketed hd hn
  · intro h
    cases h with
    | bare hd hn =>
      rw [register?_cons, unbracket_digits hd.digits]
      exact ⟨hd, hn⟩
    | bracketed hd hn =>
      rw [register?_cons, unbracket_bracketed]
      exact ⟨hd, hn⟩

theorem NamesRegister.head {cs : List Char} {n : ℕ} (h : NamesRegister cs n) : ∃ rest, cs = 'R' :: rest := by
  cases h <;> exact ⟨_, rfl⟩

theorem NamesRegister.arrow_not_mem {cs : List Char} {n : ℕ} (h : NamesRegister cs n) : '←' ∉ cs := by
  cases h with
  | bare hd =>
    have hds : '←' ∉ _ := fun hm => absurd (hd.digits '←' hm) (by decide)
    simp [hds]
  | bracketed hd =>
    have hds : '←' ∉ _ := fun hm => absurd (hd.digits '←' hm) (by decide)
    simp [hds]

/-! ## Keys -/

/-- the keys of the transfers -/
inductive Spells : List Char → MicroOp → Prop
  | marFromPc : Spells "MAR←PC".toList .marFromPc
  | mdrFromMemory : Spells "MDR←MEM[MAR]".toList .mdrFromMemory
  | irFromMdr : Spells "IR←MDR".toList .irFromMdr
  | advancePc : Spells "PC←PC+1".toList .advancePc
  | aluAdd : Spells "ALU←A+B".toList .aluAdd
  | aluSub : Spells "ALU←A-B".toList .aluSub
  | aluAnd : Spells "ALU←A&B".toList .aluAnd
  | latchFlags : Spells "FLAGS←ALU.FLAGS".toList .latchFlags
  | memoryFromMdr : Spells "MEM[MAR]←MDR".toList .memoryFromMdr
  | busAFromRegister {r : List Char} {n : ℕ} (hr : NamesRegister r n) :
      Spells ("A←".toList ++ r) (.busAFromRegister n)
  | busBFromRegister {r : List Char} {n : ℕ} (hr : NamesRegister r n) :
      Spells ("B←".toList ++ r) (.busBFromRegister n)
  | registerFromAlu {r : List Char} {n : ℕ} (hr : NamesRegister r n) :
      Spells (r ++ "←ALU".toList) (.registerFromAlu n)

/-- a fixed key spells its transfer -/
theorem spells_of_mem_fixedKeys {entry : String × MicroOp} (h : entry ∈ fixedKeys) : Spells entry.1.toList entry.2 := by
  simp only [fixedKeys, List.mem_cons, List.not_mem_nil, or_false] at h
  rcases h with rfl | rfl | rfl | rfl | rfl | rfl | rfl | rfl | rfl
  exacts [.marFromPc, .mdrFromMemory, .irFromMdr, .advancePc, .aluAdd, .aluSub, .aluAnd, .latchFlags, .memoryFromMdr]

/-- the transfer of a fixed key is found by its key -/
theorem ofKey?_fixedKeys : ∀ entry ∈ fixedKeys, ofKey? entry.1.toList = some entry.2 := by decide

/-- a transfer with a register is spelled by the two sides of its arrow -/
theorem spells_of_registerTransfer? {destination source : List Char} {op : MicroOp}
    (h : registerTransfer? destination source = some op) : Spells (destination ++ '←' :: source) op := by
  unfold registerTransfer? at h
  split_ifs at h with hA hB hALU
  · obtain ⟨n, hn, rfl⟩ := Option.map_eq_some_iff.1 h
    rw [hA]
    exact .busAFromRegister (register?_eq_some_iff.1 hn)
  · obtain ⟨n, hn, rfl⟩ := Option.map_eq_some_iff.1 h
    rw [hB]
    exact .busBFromRegister (register?_eq_some_iff.1 hn)
  · obtain ⟨n, hn, rfl⟩ := Option.map_eq_some_iff.1 h
    rw [hALU]
    exact .registerFromAlu (register?_eq_some_iff.1 hn)

/-- what follows the first arrow begins with it -/
theorem dropWhile_arrow {k source : List Char} {c : Char} (h : k.dropWhile (· != '←') = c :: source) :
    k = k.takeWhile (· != '←') ++ '←' :: source := by
  have hc := List.head?_dropWhile_not (· != '←') k
  rw [h] at hc
  obtain rfl : c = '←' := by simpa using hc
  rw [← h, List.takeWhile_append_dropWhile]

/-- **Keys are read as the grammar says.** -/
theorem ofKey?_eq_some_iff {k : List Char} {op : MicroOp} : ofKey? k = some op ↔ Spells k op := by
  constructor
  · intro h
    unfold ofKey? at h
    split at h
    · next spelling found hf =>
      cases h
      have hk : spelling.toList = k := by simpa using List.find?_some hf
      rw [← hk]
      exact spells_of_mem_fixedKeys (List.mem_of_find?_eq_some hf)
    · split at h
      · cases h
      · next hdrop =>
        rw [dropWhile_arrow hdrop]
        exact spells_of_registerTransfer? h
  · intro h
    cases h with
    | busAFromRegister hr =>
      change ofKey? (['A'] ++ '←' :: _) = _
      refine ofKey?_of_arrow (by decide) (by simp [fixedKeys]) ?_
      simp [registerTransfer?, register?_eq_some_iff.2 hr]
    | busBFromRegister hr =>
      change ofKey? (['B'] ++ '←' :: _) = _
      refine ofKey?_of_arrow (by decide) (by simp [fixedKeys]) ?_
      simp [registerTransfer?, register?_eq_some_iff.2 hr]
    | registerFromAlu hr =>
      change ofKey? (_ ++ '←' :: ['A', 'L', 'U']) = _
      refine ofKey?_of_arrow hr.arrow_not_mem ?_ ?_
      · obtain ⟨rest, rfl⟩ := hr.head
        simp [fixedKeys]
      · have hread := register?_eq_some_iff.2 hr
        obtain ⟨rest, rfl⟩ := hr.head
        simp [registerTransfer?, hread]
    | _ => exact ofKey?_fixedKeys (_, _) (by simp [fixedKeys])

/-! ## Changes that the key does not see -/

/-- one change of a text that its key does not show -/
inductive Respelling : List Char → List Char → Prop
  | blank (before after : List Char) {c : Char} (hc : Text.isBlank c = true) :
      Respelling (before ++ after) (before ++ c :: after)
  | letter (before after : List Char) {c d : Char} (hcd : c.toUpper = d.toUpper) :
      Respelling (before ++ c :: after) (before ++ d :: after)
  | arrow (before after : List Char) : Respelling (before ++ '←' :: after) (before ++ '<' :: '-' :: after)

/-- in upper case and without blanks, a letter is the same as its capital -/
theorem upper_squeeze_toUpper (c : Char) : Text.upper (Text.squeeze [c.toUpper]) = Text.upper (Text.squeeze [c]) := by
  by_cases hlower : 97 ≤ c.toNat ∧ c.toNat ≤ 122
  · have hletters : ∀ n, 97 ≤ n → n ≤ 122 →
        Text.upper (Text.squeeze [(Char.ofNat n).toUpper]) = Text.upper (Text.squeeze [Char.ofNat n]) := by decide
    have h := hletters c.toNat hlower.1 hlower.2
    rwa [Char.ofNat_toNat] at h
  · have hsame : c.toUpper = c := dif_neg hlower
    rw [hsame]

/-- arrows are joined in two parts of a text separately, if the second does not begin in the middle of one -/
theorem joinArrows_append {cs ds : List Char} (h : ds.head? ≠ some '-') :
    joinArrows (cs ++ ds) = joinArrows cs ++ joinArrows ds := by
  fun_induction joinArrows cs with
  | case1 => rfl
  | case2 cs ih => rw [List.cons_append, List.cons_append, joinArrows, ih, List.cons_append]
  | case3 c cs hc ih =>
    rw [List.cons_append, joinArrows, ih, List.cons_append]
    -- no arrow begins here: its second half would stand in one of the two parts
    rintro rest rfl hrest
    cases cs with
    | nil =>
      rw [List.nil_append] at hrest
      exact h (by rw [hrest, List.head?_cons])
    | cons d cs =>
      rw [List.cons_append, List.cons.injEq] at hrest
      obtain ⟨rfl, -⟩ := hrest
      exact hc cs rfl rfl

/-- **The key does not show a respelling.** -/
theorem Respelling.key_eq {cs ds : List Char} (h : Respelling cs ds) : key cs = key ds := by
  cases h with
  | @blank before after c hc =>
    have hgone : Text.squeeze (c :: after) = Text.squeeze after := List.filter_cons_of_neg (by simp [hc])
    rw [key, key, Text.squeeze_append, Text.squeeze_append, hgone]
  | @letter before after c d hcd =>
    have hsame : Text.upper (Text.squeeze [c]) = Text.upper (Text.squeeze [d]) := by
      rw [← upper_squeeze_toUpper c, hcd, upper_squeeze_toUpper d]
    rw [← List.singleton_append, ← List.singleton_append (x := d)]
    simp only [key, Text.squeeze_append, Text.upper_append, hsame]
  | arrow before after =>
    have harrow : Text.upper (Text.squeeze ('←' :: after)) = '←' :: Text.upper (Text.squeeze after) := rfl
    have hpair : Text.upper (Text.squeeze ('<' :: '-' :: after)) = '<' :: '-' :: Text.upper (Text.squeeze after) := rfl
    rw [key, key, Text.squeeze_append, Text.squeeze_append, Text.upper_append, Text.upper_append, harrow, hpair,
      joinArrows_append (by simp), joinArrows_append (by simp)]
    rfl

/-- texts that differ in blanks, in the case of ASCII letters and in the spelling of arrows -/
def Respelled : List Char → List Char → Prop :=
  Relation.EqvGen Respelling

theorem Respelled.key_eq {cs ds : List Char} (h : Respelled cs ds) : key cs = key ds := by
  induction h with
  | rel _ _ h => exact h.key_eq
  | refl _ => rfl
  | symm _ _ _ ih => exact ih.symm
  | trans _ _ _ _ _ ih₁ ih₂ => exact ih₁.trans ih₂

/-! ## Decoding -/

/-- **The decoder accepts exactly its grammar.** A text decodes to a transfer if its key spells that transfer, and to no
other; if its key spells none, the text decodes to itself, trimmed. A text that decodes to a transfer decodes to it in
every other spelling. -/
theorem decodes_exactly_its_grammar (s : String) :
    (∀ op, decode s = op ∧ op.isUnknown = false ↔ Spells (key s.toList) op) ∧
      ((∀ op, ¬Spells (key s.toList) op) → decode s = .unknown (Text.trimmed s)) ∧
      ∀ t : String, Respelled s.toList t.toList → (decode s).isUnknown = false → decode t = decode s := by
  have hread : ∀ op, decode s = op ∧ op.isUnknown = false ↔ ofKey? (key s.toList) = some op := by
    intro op
    unfold decode
    cases hk : ofKey? (key s.toList) with
    | none =>
      refine iff_of_false ?_ nofun
      rintro ⟨rfl, h⟩
      cases h
    | some found =>
      rw [Option.getD_some, Option.some.injEq]
      refine ⟨And.left, ?_⟩
      rintro rfl
      exact ⟨rfl, ofKey?_isUnknown hk⟩
  refine ⟨fun op => (hread op).trans ofKey?_eq_some_iff, fun hnone => ?_, fun t ht hs => ?_⟩
  · have hk : ofKey? (key s.toList) = none :=
      Option.eq_none_iff_forall_ne_some.2 fun op h => hnone op (ofKey?_eq_some_iff.1 h)
    rw [decode, hk, Option.getD_none]
  · have hk : ofKey? (key s.toList) = some (decode s) := (hread _).1 ⟨rfl, hs⟩
    have ht : ofKey? (key t.toList) = some (decode s) := by rw [← ht.key_eq, hk]
    rw [decode, ht, Option.getD_some]

/-- a register with leading zeros, two pairs of brackets, and a text with a blank, a small letter and the other arrow -/
theorem decodes_exactly_its_grammar_seven :
    (decode "R[007] ← ALU" = .registerFromAlu 7 ∧ (registerFromAlu 7).isUnknown = false) ∧
      decode " A ← R[[1]] " = .unknown "A ← R[[1]]" ∧
      decode "r[007] <-ALU" = decode "R[007]←ALU" := by
  have hseven : IsNumeral ['0', '0', '7'] 7 := ⟨by decide, List.all_eq_true.1 (by decide), by decide⟩
  have hspelled : Spells (key "R[007] ← ALU".toList) (.registerFromAlu 7) :=
    .registerFromAlu (.bracketed hseven (by decide))
  have hnone : ∀ op, ¬Spells (key " A ← R[[1]] ".toList) op := fun op h => by
    have hk : ofKey? (key " A ← R[[1]] ".toList) = none := by decide
    rw [ofKey?_eq_some_iff.2 h] at hk
    cases hk
  have hrespelled : Respelled "R[007]←ALU".toList "r[007] <-ALU".toList :=
    .trans _ _ _ (.rel _ _ (.letter [] "[007]←ALU".toList (show 'R'.toUpper = 'r'.toUpper by decide)))
      (.trans _ _ _ (.rel _ _ (.arrow "r[007]".toList "ALU".toList))
        (.rel _ _ (.blank "r[007]".toList "<-ALU".toList (show Text.isBlank ' ' = true by decide))))
  exact ⟨((decodes_exactly_its_grammar _).1 _).2 hspelled, (decodes_exactly_its_grammar _).2.1 hnone,
    (decodes_exactly_its_grammar _).2.2 _ hrespelled (by decide)⟩

/-- ligatures and the long s come out as the letters of the flags -/
example : decode "ﬂagſ ← alu.ﬂags" = .latchFlags := by decide

end MicroOp

end ByteMachine
