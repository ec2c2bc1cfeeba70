/-
Reading back what was printed.

The reader takes a value from the front of a row of tokens, on a budget that bounds the nesting. As many units as the
value has tokens are enough: each call spends one unit, and takes at least one token away before it calls again.

Main statements:
- `read_spread`: the spread form of a plain value, with blanks after it, is read back as that value;
- `read_compact`: so is the compact form.
-/
import Mathlib.Tactic
import ByteMachine.Json.Reader
import ByteMachine.Proofs.Json.Tokens

namespace ByteMachine.Json

/-! ## Values from tokens -/

/-- a value has a first token, and it is no closing bracket -/
theorem exists_tokensOf_eq_cons (j : Json) : ∃ t ts, tokensOf j = t :: ts ∧ t ≠ .listClose := by
  cases j with
  | list items => cases items <;> simp [tokensOf]
  | object members => rcases members with _ | ⟨⟨key, j⟩, ms⟩ <;> simp [tokensOf]
  | _ => simp [tokensOf]

theorem length_tokensOf_pos (j : Json) : 0 < (tokensOf j).length := by
  obtain ⟨t, ts, h, -⟩ := exists_tokensOf_eq_cons j
  rw [h]
  exact Nat.succ_pos _

theorem tokensOf_append_ne_listClose (j : Json) (ts us : List Token) : tokensOf j ++ ts ≠ .listClose :: us := by
  obtain ⟨t, _, h, ht⟩ := exists_tokensOf_eq_cons j
  rw [h, List.cons_append]
  exact fun he => ht (List.cons.inj he).1

/-- members whose keys are all texts -/
def keyed (members : List (String × Json)) : List (Option String × Json) :=
  members.map fun m => (some m.1, m.2)

theorem objectOf_keyed (members : List (String × Json)) : objectOf (keyed members) = .object members := by
  have h : (keyed members).mapM (fun m => m.1.map (·, m.2)) = some members := by
    induction members with
    | nil => rfl
    | cons m ms ih =>
      rw [keyed, List.map_cons, List.mapM_cons]
      rw [keyed] at ih
      simp [ih]
  unfold objectOf
  split
  · next ms hm => rw [Option.some.inj (hm.symm.trans h)]
  · next hm => cases hm.symm.trans h

theorem member_of_value {fuel : ℕ} (key : String) {j : Json} {ts rest : List Token}
    (h : value fuel ts = some (j, rest)) :
    member (fuel + 1) (.str key :: .colon :: ts) = some ((some key, j), rest) := by
  simp [member, h]

mutual

theorem value_tokensOf (fuel : ℕ) (j : Json) (ts : List Token) (hp : j.isPlain = true)
    (hf : (tokensOf j).length ≤ fuel) : value fuel (tokensOf j ++ ts) = some (j, ts) := by
  have hpos := length_tokensOf_pos j
  obtain ⟨fuel, rfl⟩ : ∃ k, fuel = k + 1 := ⟨fuel - 1, by omega⟩
  cases j with
  | foreign => cases hp
  | list items =>
    cases items with
    | nil => rfl
    | cons j js =>
      simp only [isPlain, arePlain, Bool.and_eq_true] at hp
      simp only [tokensOf, List.length_cons, List.length_append] at hf
      have hj := value_tokensOf fuel j (itemTokens js ++ ts) hp.1 (by omega)
      have hi := items_itemTokens fuel js ts hp.2 (by omega)
      rw [tokensOf, List.cons_append, List.append_assoc, value]
      · simp [hj, hi]
      · intro us; exact tokensOf_append_ne_listClose j _ us
  | object members =>
    rcases members with _ | ⟨⟨key, j⟩, ms⟩
    · rfl
    · simp only [isPlain, membersPlain, Bool.and_eq_true] at hp
      simp only [tokensOf, List.length_cons, List.length_append] at hf
      obtain ⟨fuel, rfl⟩ : ∃ k, fuel = k + 1 := ⟨fuel - 1, by omega⟩
      have hj := value_tokensOf fuel j (memberTokens ms ++ ts) hp.1 (by omega)
      have hm := members_memberTokens (fuel + 1) ms ts hp.2 (by omega)
      rw [tokensOf, List.cons_append, List.cons_append, List.cons_append, List.append_assoc, value]
      · simp only [member_of_value key hj, hm, Option.bind_eq_bind, Option.bind_some, Option.pure_def,
          Option.some.injEq, Prod.mk.injEq, and_true]
        exact objectOf_keyed ((key, j) :: ms)
      · intro us h; cases h
  | _ => rfl

theorem items_itemTokens (fuel : ℕ) (js : List Json) (ts : List Token) (hp : arePlain js = true)
    (hf : (itemTokens js).length ≤ fuel) : items fuel (itemTokens js ++ ts) = some (js, ts) := by
  cases js with
  | nil =>
    obtain ⟨fuel, rfl⟩ : ∃ k, fuel = k + 1 := ⟨fuel - 1, by simp [itemTokens] at hf; omega⟩
    rfl
  | cons j js =>
    simp only [arePlain, Bool.and_eq_true] at hp
    simp only [itemTokens, List.length_cons, List.length_append] at hf
    obtain ⟨fuel, rfl⟩ : ∃ k, fuel = k + 1 := ⟨fuel - 1, by omega⟩
    have hj := value_tokensOf fuel j (itemTokens js ++ ts) hp.1 (by omega)
    have hi := items_itemTokens fuel js ts hp.2 (by omega)
    rw [itemTokens, List.cons_append, List.append_assoc, items]
    simp [hj, hi]

theorem members_memberTokens (fuel : ℕ) (ms : List (String × Json)) (ts : List Token) (hp : membersPlain ms = true)
    (hf : (memberTokens ms).length ≤ fuel) : members fuel (memberTokens ms ++ ts) = some (keyed ms, ts) := by
  rcases ms with _ | ⟨⟨key, j⟩, ms⟩
  · obtain ⟨fuel, rfl⟩ : ∃ k, fuel = k + 1 := ⟨fuel - 1, by simp [memberTokens] at hf; omega⟩
    rfl
  · simp only [membersPlain, Bool.and_eq_true] at hp
    simp only [memberTokens, List.length_cons, List.length_append] at hf
    obtain ⟨fuel, rfl⟩ : ∃ k, fuel = k + 2 := ⟨fuel - 2, by omega⟩
    have hj := value_tokensOf fuel j (memberTokens ms ++ ts) hp.1 (by omega)
    have hm := members_memberTokens (fuel + 1) ms ts hp.2 (by omega)
    rw [memberTokens, List.cons_append, List.cons_append, List.cons_append, List.append_assoc, members]
    simp [member_of_value key hj, hm, keyed]

end

theorem ofTokens?_tokensOf {j : Json} (hp : j.isPlain = true) : ofTokens? (tokensOf j) = some j := by
  have h := value_tokensOf ((tokensOf j).length + 1) j [] hp (by omega)
  rw [List.append_nil] at h
  rw [ofTokens?, h]

/-! ## Texts -/

/-- **What is printed is read back**: a plain value, in its spread form, with any blanks after it. -/
theorem read_spread {j : Json} (hp : j.isPlain = true) {blanks : String}
    (hb : ∀ c ∈ blanks.toList, isSpace c = true) : read (j.spread ++ blanks) = some j := by
  have ht : (j.spread ++ blanks).toList = spreadChars 0 j ++ blanks.toList := by simp [spread]
  rw [read, ht, tokenize_spread j hb, Option.bind_some, ofTokens?_tokensOf hp]

/-- **The compact form is read back too.** -/
theorem read_compact {j : Json} (hp : j.isPlain = true) : read j.compact = some j := by
  rw [read, compact, String.toList_ofList, tokenize_compact, Option.bind_some, ofTokens?_tokensOf hp]

theorem read_spread_bare {j : Json} (hp : j.isPlain = true) : read j.spread = some j := by
  have h : read (j.spread ++ "") = some j := read_spread hp (by simp)
  rwa [String.append_empty] at h

end ByteMachine.Json
