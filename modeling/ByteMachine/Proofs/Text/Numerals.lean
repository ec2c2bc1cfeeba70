/-
Numerals in any base up to sixteen.

A digit is looked up in one row of sixteen, and the base says how much of the row counts. A row of digits is read from
the left with a number in front of it, which every digit can only make greater, so it is enough to look at the value of
the whole row: if that is below the bound, then so is every number on the way to it.

Contents:
- `digitValue`, `rowValue`: the values of a digit and of a row of them;
- `IsRow`, `Numeral`: what a numeral is;
- `IsHexPair`: two hexadecimal digits with capital letters.

Main statements:
- `readDigits_eq_ok_iff_rowValue`: what is read from a row of digits, and when;
- `readUnsigned_eq_ok_iff`: what is read are the numerals below the bound;
- `isHexPair_hexByte`: bytes are written as hexadecimal numerals.
-/
import Mathlib.Tactic
import ByteMachine.Text.Numeral

namespace ByteMachine.Text

/-! ## Digits -/

/-- the digits up to base sixteen; each stands for its place -/
def digitRow : List Char :=
  ['0', '1', '2', '3', '4', '5', '6', '7', '8', '9', 'a', 'b', 'c', 'd', 'e', 'f']

/-- the value of a digit, where letters may have either case; what is no digit has the value sixteen -/
def digitValue (c : Char) : ℕ :=
  digitRow.idxOf c.toLower

/-- beyond ASCII no character is at most `d` -/
theorem not_le_of_toNat {c d : Char} (hd : d.toNat < 128) (hc : 128 ≤ c.toNat) : ¬c ≤ d := by
  intro h
  have hle : c.toNat ≤ d.toNat := UInt32.le_iff_toNat_le.1 h
  omega

theorem digitValue_of_not_ascii {c : Char} (hc : 128 ≤ c.toNat) : digitValue c = 16 := by
  have hlower : c.toLower = c := by
    refine dif_neg ?_
    rintro ⟨-, hz⟩
    exact not_le_of_toNat (d := 'Z') (by decide) hc hz
  have hnone : c ∉ digitRow := by
    intro hm
    have hascii : digitRow.all (·.toNat < 128) = true := by decide
    have hlt : c.toNat < 128 := by simpa using List.all_eq_true.1 hascii c hm
    omega
  rw [digitValue, hlower, List.idxOf_eq_length hnone]
  rfl

theorem digit?_sixteen_ascii : ∀ n < 128, digit? 16 (Char.ofNat n) =
    if digitValue (Char.ofNat n) < 16 then some (digitValue (Char.ofNat n)) else none := by decide

/-- the hexadecimal digits are those of the whole row -/
theorem digit?_sixteen (c : Char) : digit? 16 c = if digitValue c < 16 then some (digitValue c) else none := by
  by_cases hc : c.toNat < 128
  · have h := digit?_sixteen_ascii c.toNat hc
    rwa [Char.ofNat_toNat] at h
  · have hc' : 128 ≤ c.toNat := Nat.le_of_not_lt hc
    have h9 : ¬c ≤ '9' := not_le_of_toNat (by decide) hc'
    have hf : ¬c ≤ 'f' := not_le_of_toNat (by decide) hc'
    have hF : ¬c ≤ 'F' := not_le_of_toNat (by decide) hc'
    rw [digitValue_of_not_ascii hc', if_neg (by decide)]
    simp [digit?, isDigit, h9, hf, hF]

/-- the digits of a base are those with a value below it -/
theorem digit?_eq {base : ℕ} (hbase : base ≤ 16) (c : Char) :
    digit? base c = if digitValue c < base then some (digitValue c) else none := by
  have hrow : digit? base c = (digit? 16 c).filter (· < base) := by
    have hboth : (fun v : ℕ => decide (v < 16) && decide (v < base)) = fun v => decide (v < base) := by
      funext v
      by_cases hv : v < base
      · have h16 : v < 16 := hv.trans_le hbase
        simp [hv, h16]
      · simp [hv]
    unfold digit?
    rw [Option.filter_filter, hboth]
  rw [hrow, digit?_sixteen]
  by_cases hv : digitValue c < base
  · have h16 : digitValue c < 16 := hv.trans_le hbase
    simp [hv, h16]
  · rw [if_neg hv]
    by_cases h16 : digitValue c < 16
    · simpa [h16] using hv
    · simp [h16]

/-! ## Rows of digits -/

/-- the number that a row of digits stands for, the most significant digit first -/
def rowValue (base : ℕ) (ds : List Char) : ℕ :=
  Nat.ofDigits base (ds.reverse.map digitValue)

theorem rowValue_nil (base : ℕ) : rowValue base [] = 0 := rfl

theorem rowValue_cons (base : ℕ) (d : Char) (ds : List Char) :
    rowValue base (d :: ds) = digitValue d * base ^ ds.length + rowValue base ds := by
  rw [rowValue, List.reverse_cons, List.map_append, Nat.ofDigits_append, List.length_map, List.length_reverse,
    List.map_singleton, Nat.ofDigits_singleton, rowValue]
  ring

/-- **A row of digits is read exactly if its value is below the bound**, and then as that value; a number that was read
before stands in front of it. -/
theorem readDigits_eq_ok_iff_rowValue {base bound acc n : ℕ} {beyond : NumeralError} {ds : List Char}
    (hbase : base ≤ 16) (ha : acc < bound) :
    readDigits base bound beyond acc ds = .ok n ↔
      (∀ d ∈ ds, digitValue d < base) ∧ acc * base ^ ds.length + rowValue base ds = n ∧ n < bound := by
  induction ds generalizing acc with
  | nil =>
    rw [readDigits, rowValue_nil, List.length_nil, pow_zero, mul_one, add_zero, Except.ok.injEq]
    constructor
    · rintro rfl
      exact ⟨fun d hd => absurd hd List.not_mem_nil, rfl, ha⟩
    · rintro ⟨-, h, -⟩
      exact h
  | cons d ds ih =>
    rw [readDigits, digit?_eq hbase, List.forall_mem_cons]
    by_cases hd : digitValue d < base
    · rw [if_pos hd]
      dsimp only
      set next := base * acc + digitValue d with hnext
      -- the value of the whole row is that of the rest, with the number that is reached here in front of it
      have hvalue : acc * base ^ (d :: ds).length + rowValue base (d :: ds) =
          next * base ^ ds.length + rowValue base ds := by
        rw [rowValue_cons, List.length_cons, hnext]
        ring
      rw [hvalue]
      by_cases hb : next < bound
      · rw [if_pos hb, ih hb]
        simp only [hd, true_and]
      · rw [if_neg hb]
        have hpos : 0 < base := Nat.zero_lt_of_lt hd
        have hgrows : next ≤ next * base ^ ds.length := Nat.le_mul_of_pos_right _ (by positivity)
        apply iff_of_false
        · simp
        · rintro ⟨-, hn, hlt⟩
          omega
    · rw [if_neg hd]
      apply iff_of_false
      · simp
      · intro h
        exact hd h.1.1

/-! ## Numerals -/

/-- digits of this base, at least one, with any zeros in front, and the number that they stand for -/
structure IsRow (base : ℕ) (ds : List Char) (n : ℕ) : Prop where
  nonempty : ds ≠ []
  digits : ∀ d ∈ ds, digitValue d < base
  value : rowValue base ds = n

/-- a numeral: a row of digits, perhaps with one plus sign in front of it -/
inductive Numeral (base : ℕ) : List Char → ℕ → Prop
  | bare {ds : List Char} {n : ℕ} (h : IsRow base ds n) : Numeral base ds n
  | signed {ds : List Char} {n : ℕ} (h : IsRow base ds n) : Numeral base ('+' :: ds) n

/-- characters above the base do not occur in a row of digits -/
theorem IsRow.not_mem {base n : ℕ} {ds : List Char} (h : IsRow base ds n) {c : Char} (hc : base ≤ digitValue c) :
    c ∉ ds := by
  intro hm
  have hlt := h.digits c hm
  omega

/-- apart from the sign, they do not occur in a numeral either -/
theorem Numeral.not_mem {base n : ℕ} {cs : List Char} (h : Numeral base cs n) {c : Char} (hc : base ≤ digitValue c)
    (hsign : c ≠ '+') : c ∉ cs := by
  cases h with
  | bare h => exact h.not_mem hc
  | signed h =>
    intro hm
    rcases List.mem_cons.1 hm with hm | hm
    · exact hsign hm
    · exact h.not_mem hc hm

theorem readMagnitude_eq_ok_iff {base bound n : ℕ} {beyond : NumeralError} {ds : List Char} (hbase : base ≤ 16)
    (hbound : 0 < bound) : readMagnitude base bound beyond ds = .ok n ↔ IsRow base ds n ∧ n < bound := by
  cases ds with
  | nil =>
    apply iff_of_false
    · simp [readMagnitude]
    · intro h
      exact h.1.nonempty rfl
  | cons d ds =>
    rw [readMagnitude, readDigits_eq_ok_iff_rowValue hbase hbound, zero_mul, zero_add]
    · constructor
      · rintro ⟨hd, hv, hn⟩
        exact ⟨⟨List.cons_ne_nil d ds, hd, hv⟩, hn⟩
      · rintro ⟨h, hn⟩
        exact ⟨h.digits, h.value, hn⟩
    · exact List.cons_ne_nil d ds

/-- **What is read are the numerals below the bound.** -/
theorem readUnsigned_eq_ok_iff {base bound n : ℕ} {cs : List Char} (hbase : base ≤ 16) (hbound : 0 < bound) :
    readUnsigned base bound cs = .ok n ↔ Numeral base cs n ∧ n < bound := by
  constructor
  · intro h
    unfold readUnsigned at h
    split at h
    · cases h
    · obtain ⟨hrow, hn⟩ := (readMagnitude_eq_ok_iff hbase hbound).1 h
      exact ⟨.signed hrow, hn⟩
    · obtain ⟨hrow, hn⟩ := (readMagnitude_eq_ok_iff hbase hbound).1 h
      exact ⟨.bare hrow, hn⟩
  · rintro ⟨h, hn⟩
    cases h with
    | signed hrow => exact (readMagnitude_eq_ok_iff hbase hbound).2 ⟨hrow, hn⟩
    | bare hrow =>
      unfold readUnsigned
      split
      · exact absurd rfl hrow.nonempty
      · -- a plus sign is no digit
        have hplus : digitValue '+' = 16 := by decide
        exact absurd List.mem_cons_self (hrow.not_mem (hbase.trans_eq hplus.symm))
      · exact (readMagnitude_eq_ok_iff hbase hbound).2 ⟨hrow, hn⟩

/-! ## Bytes in hexadecimal -/

/-- two hexadecimal digits that stand for `n`, the letters among them capitals -/
structure IsHexPair (text : String) (n : ℕ) : Prop where
  length : text.toList.length = 2
  row : IsRow 16 text.toList n
  capitals : ∀ d ∈ text.toList, d.isLower = false

/-- **Bytes are written as hexadecimal numerals of two digits.** -/
theorem isHexPair_hexByte (b : UInt8) : IsHexPair (hexByte b) b.toNat := by
  have hdigit : ∀ n < 16, digitValue (hexDigit n) = n ∧ (hexDigit n).isLower = false := by decide
  have hlt : b.toNat < 256 := b.toNat_lt
  have hhigh := hdigit (b.toNat / 16) (by omega)
  have hlow := hdigit (b.toNat % 16) (by omega)
  have htext : (hexByte b).toList = [hexDigit (b.toNat / 16), hexDigit (b.toNat % 16)] := by
    rw [hexByte, String.toList_ofList]
  refine ⟨?_, ⟨?_, ?_, ?_⟩, ?_⟩
  · rw [htext]
    rfl
  · rw [htext]
    exact List.cons_ne_nil _ _
  · rw [htext]
    intro d hd
    rcases List.mem_pair.1 hd with rfl | rfl
    · omega
    · omega
  · rw [htext, rowValue_cons, rowValue_cons, rowValue_nil, hhigh.1, hlow.1]
    simp only [List.length_cons, List.length_nil]
    omega
  · rw [htext]
    intro d hd
    rcases List.mem_pair.1 hd with rfl | rfl
    · exact hhigh.2
    · exact hlow.2

end ByteMachine.Text
