/-
The tokens of a printed JSON value.

Scanning takes a text apart from the front, one token at a time, on a budget of one unit per character. Each token is
at least one character long, so the budget is never short, and `tokenize` obeys plain equations: a blank is skipped, a
token is put in front of the tokens of what follows it. Of a printed value each piece is scanned back:
- a text between quotes, whatever characters it holds (`scanText_quoted`);
- an integer, if what follows cannot continue it (`scanNumber_intChars`, `EndsNumber`);
- a value with its parts (`tokenize_spreadChars`, `tokenize_compactChars`), into the row of tokens `tokensOf`.

Main statements:
- `tokenize_spread`: the spread form of a value, with blanks after it, has the tokens of the value;
- `tokenize_compact`: the compact form has them too.
-/
import Mathlib.Tactic
import ByteMachine.Json.Printer

namespace ByteMachine

/-! ## Decimal numerals -/

namespace Text

theorem exists_decimal_eq_cons (n : ℕ) : ∃ c cs, decimal n = c :: cs ∧ isDigit c = true := by
  obtain ⟨c, cs, h⟩ := List.exists_cons_of_ne_nil (Nat.toDigits_ne_nil (n := n) (b := 10))
  have hm : c ∈ decimal n := by rw [decimal, h]; exact List.mem_cons_self
  exact ⟨c, cs, h, isDigit_of_mem_decimal hm⟩

/-- only zero is written with a zero in front -/
theorem eq_zero_of_decimal_eq_cons {n : ℕ} {cs : List Char} (h : decimal n = '0' :: cs) : n = 0 := by
  induction n using Nat.strongRecOn generalizing cs with
  | _ n ih =>
    rw [decimal, Nat.toDigits_eq_if (by decide)] at h
    split_ifs at h with hn
    · have hz : n.digitChar = '0' := (List.cons.inj h).1
      have hv := Nat.toNat_digitChar_of_lt_ten hn
      rw [hz, show '0'.toNat = 48 from rfl] at hv
      omega
    · obtain ⟨c, ds, hc, -⟩ := exists_decimal_eq_cons (n / 10)
      rw [show Nat.toDigits 10 (n / 10) = c :: ds from hc, List.cons_append] at h
      have hz : c = '0' := (List.cons.inj h).1
      have := ih (n / 10) (by omega) (hz ▸ hc)
      omega

end Text

namespace Json

/-! ## Texts between quotes -/

theorem hexValue?_hexDigit : ∀ n < 16, hexValue? (hexDigit n) = some n := by
  decide

/-- the escape of a control character stands for that character -/
theorem codeUnit?_control {n : ℕ} (h : n < 32) :
    codeUnit? '0' '0' (hexDigit (n / 16)) (hexDigit (n % 16)) = some n := by
  have h0 : hexValue? '0' = some 0 := by decide
  have h1 := hexValue?_hexDigit (n / 16) (by omega)
  have h2 := hexValue?_hexDigit (n % 16) (by omega)
  simp only [codeUnit?, h0, h1, h2, Option.bind_eq_bind, Option.bind_some, Option.pure_def, Option.some.injEq]
  omega

theorem scanText_escapeChar (c : Char) (cs : List Char) :
    scanText (escapeChar c ++ cs) = (scanText cs).map fun p => (c.toNat :: p.1, p.2) := by
  unfold escapeChar
  split_ifs with h1 h2 h3 h4 h5 h6 h7 h8
  · subst h1; rfl
  · subst h2; rfl
  · subst h3; rfl
  · subst h4; rfl
  · subst h5; rfl
  · subst h6; rfl
  · subst h7; rfl
  · have hn : c.toNat < 32 := h8
    simp only [List.cons_append, List.nil_append]
    rw [scanText, codeUnit?_control hn]
  · -- neither the quote nor the backslash, so no escape can start here
    rw [List.cons_append, List.nil_append, scanText, if_neg h8]
    · exact h1
    · intro a b c' d ds h _; exact h2 h
    · intro e ds h _; exact h2 h

theorem scanText_quoted (cs rest : List Char) :
    scanText (cs.flatMap escapeChar ++ '"' :: rest) = some (cs.map Char.toNat, rest) := by
  induction cs with
  | nil => rfl
  | cons c cs ih => rw [List.flatMap_cons, List.append_assoc, scanText_escapeChar, ih]; rfl

theorem scanToken_quote (s : String) (rest : List Char) : scanToken (quote s ++ rest) = some (.str s, rest) := by
  have h : quote s ++ rest = '"' :: (s.toList.flatMap escapeChar ++ '"' :: rest) := by simp [quote]
  rw [h, scanToken, scanText_quoted]
  simp [textToken, decodeUnits_chars]

/-! ## Numbers -/

/-- the text cannot continue a number that stands before it -/
def EndsNumber (rest : List Char) : Prop :=
  ∀ c ∈ rest.head?, Text.isDigit c = false ∧ c ≠ '.' ∧ c ≠ 'e' ∧ c ≠ 'E'

theorem spanDigits_append {digits rest : List Char} (hd : ∀ c ∈ digits, Text.isDigit c = true)
    (hr : EndsNumber rest) : spanDigits (digits ++ rest) = (digits, rest) := by
  have h : rest.takeWhile Text.isDigit = [] ∧ rest.dropWhile Text.isDigit = rest := by
    cases rest with
    | nil => exact ⟨rfl, rfl⟩
    | cons c rest => simp [(hr c rfl).1]
  rw [spanDigits, List.takeWhile_append_of_pos hd, List.dropWhile_append_of_pos hd, h.1, h.2, List.append_nil]

theorem scanWhole_decimal (n : ℕ) {rest : List Char} (hr : EndsNumber rest) :
    scanWhole (Text.decimal n ++ rest) = some (Text.decimal n, rest) := by
  have hs := spanDigits_append (fun c hc => Text.isDigit_of_mem_decimal (n := n) hc) hr
  obtain ⟨c, cs, hc, -⟩ := Text.exists_decimal_eq_cons n
  by_cases hz : c = '0'
  · have hn : n = 0 := Text.eq_zero_of_decimal_eq_cons (hz ▸ hc)
    subst hn
    rfl
  · rw [hc, List.cons_append] at hs ⊢
    rw [scanWhole, hs]
    · rfl
    · intro ds h; exact hz (List.cons.inj h).1

theorem skipFraction_of_ends {rest : List Char} (hr : EndsNumber rest) : skipFraction rest = some (false, rest) := by
  cases rest with
  | nil => rfl
  | cons c rest =>
    rw [skipFraction]
    intro cs h; exact (hr c rfl).2.1 (List.cons.inj h).1

theorem skipExponent_of_ends {rest : List Char} (hr : EndsNumber rest) : skipExponent rest = some (false, rest) := by
  cases rest with
  | nil => rfl
  | cons c rest =>
    rw [skipExponent]
    · intro cs h; exact (hr c rfl).2.2.1 (List.cons.inj h).1
    · intro cs h; exact (hr c rfl).2.2.2 (List.cons.inj h).1

theorem scanMagnitude_decimal (negative : Bool) (n : ℕ) {rest : List Char} (hr : EndsNumber rest) :
    scanMagnitude negative (Text.decimal n ++ rest) = some (integerToken negative n, rest) := by
  have hv : Nat.ofDigitChars 10 (Text.decimal n) 0 = n := Nat.ofDigitChars_ten_toDigits
  simp [scanMagnitude, scanWhole_decimal n hr, skipFraction_of_ends hr, skipExponent_of_ends hr, hv]

/-- **A printed integer is read back**, whatever its sign and its size, if the text after it cannot continue it. -/
theorem scanNumber_intChars (n : ℤ) {rest : List Char} (hr : EndsNumber rest) :
    scanNumber (intChars n ++ rest) = some (.int n, rest) := by
  unfold intChars
  split_ifs with hn
  · have h0 : n.natAbs ≠ 0 := by omega
    have hv : -(n.natAbs : ℤ) = n := by omega
    rw [List.cons_append, scanNumber, scanMagnitude_decimal true _ hr, integerToken, if_pos rfl, if_neg h0, hv]
  · have hv : (n.natAbs : ℤ) = n := by omega
    obtain ⟨c, cs, hc, hd⟩ := Text.exists_decimal_eq_cons n.natAbs
    have hm : c ≠ '-' := by rintro rfl; exact absurd hd (by decide)
    have hs := scanMagnitude_decimal false n.natAbs hr
    rw [hc, List.cons_append] at hs ⊢
    rw [scanNumber, hs, integerToken, if_neg Bool.false_ne_true, hv]
    intro ds h; exact hm (List.cons.inj h).1

/-- a digit or a minus sign starts a number and nothing else -/
theorem scanToken_eq_scanNumber {c : Char} (cs : List Char) (h : Text.isDigit c = true ∨ c = '-') :
    scanToken (c :: cs) = scanNumber (c :: cs) := by
  unfold scanToken
  split
  case h_11 => rfl
  all_goals
    next he =>
      rw [(List.cons.inj he).1] at h
      exact absurd h (by decide)

theorem exists_intChars_eq_cons (n : ℤ) : ∃ c cs, intChars n = c :: cs ∧ (Text.isDigit c = true ∨ c = '-') := by
  obtain ⟨c, cs, hc, hd⟩ := Text.exists_decimal_eq_cons n.natAbs
  unfold intChars
  split_ifs
  · exact ⟨'-', _, rfl, .inr rfl⟩
  · exact ⟨c, cs, hc, .inl hd⟩

theorem scanToken_intChars (n : ℤ) {rest : List Char} (hr : EndsNumber rest) :
    scanToken (intChars n ++ rest) = some (.int n, rest) := by
  obtain ⟨c, cs, hc, hd⟩ := exists_intChars_eq_cons n
  have hs := scanNumber_intChars n hr
  rw [hc, List.cons_append] at hs ⊢
  rw [scanToken_eq_scanNumber _ hd, hs]

/-! ## Every token makes progress -/

theorem length_of_scanText {cs rest : List Char} {units : List ℕ} (h : scanText cs = some (units, rest)) :
    rest.length < cs.length := by
  fun_induction scanText cs generalizing units with
  | case2 cs => cases h; simp
  | case4 a b c d cs unit hu ih | case6 e cs hne c hc ih | case8 c cs h1 h2 h3 hc ih =>
    -- an escape or a character of its own is in front of what the induction hypothesis is about
    obtain ⟨⟨us, r⟩, hr, he⟩ := Option.map_eq_some_iff.1 h
    cases he
    have := ih hr
    simp only [List.length_cons]; omega
  | _ => cases h

theorem skipDigits_suffix {cs rest : List Char} (h : skipDigits cs = some rest) : rest <:+ cs := by
  unfold skipDigits spanDigits at h
  dsimp only at h
  split at h
  · cases h
  · cases h; exact List.dropWhile_suffix _

theorem skipSign_suffix (cs : List Char) : skipSign cs <:+ cs := by
  unfold skipSign
  split
  · exact List.suffix_cons _ _
  · exact List.suffix_cons _ _
  · exact List.suffix_refl _

theorem skipFraction_suffix {cs rest : List Char} {b : Bool} (h : skipFraction cs = some (b, rest)) :
    rest <:+ cs := by
  unfold skipFraction at h
  split at h
  · obtain ⟨r, hr, he⟩ := Option.map_eq_some_iff.1 h
    cases he
    exact (skipDigits_suffix hr).trans (List.suffix_cons _ _)
  · cases h; exact List.suffix_refl _

theorem skipExponent_suffix {cs rest : List Char} {b : Bool} (h : skipExponent cs = some (b, rest)) :
    rest <:+ cs := by
  have key : ∀ e ds, (skipDigits (skipSign ds)).map (true, ·) = some (b, rest) → rest <:+ e :: ds := by
    intro e ds hd
    obtain ⟨r, hr, he⟩ := Option.map_eq_some_iff.1 hd
    cases he
    exact (skipDigits_suffix hr).trans ((skipSign_suffix ds).trans (List.suffix_cons e ds))
  unfold skipExponent at h
  split at h
  · exact key _ _ h
  · exact key _ _ h
  · cases h; exact List.suffix_refl _

theorem length_of_scanWhole {cs digits rest : List Char} (h : scanWhole cs = some (digits, rest)) :
    rest.length < cs.length := by
  unfold scanWhole spanDigits at h
  split at h
  · cases h; simp
  · dsimp only at h
    split at h
    · cases h
    · next hd =>
      cases h
      have hp : 0 < (cs.takeWhile Text.isDigit).length := List.length_pos_iff.2 (by simpa using hd)
      have hl := congrArg List.length (List.takeWhile_append_dropWhile (p := Text.isDigit) (l := cs))
      rw [List.length_append] at hl
      omega

theorem length_of_scanNumber {cs rest : List Char} {t : Token} (h : scanNumber cs = some (t, rest)) :
    rest.length < cs.length := by
  have key : ∀ negative ds, scanMagnitude negative ds = some (t, rest) → rest.length < ds.length := by
    intro negative ds hm
    simp only [scanMagnitude, Option.bind_eq_bind, Option.pure_def, Option.bind_eq_some_iff] at hm
    obtain ⟨⟨digits, r1⟩, h1, ⟨f, r2⟩, h2, ⟨e, r3⟩, h3, h4⟩ := hm
    cases h4
    have l1 := length_of_scanWhole h1
    have l2 : r2.length ≤ r1.length := (skipFraction_suffix h2).length_le
    have l3 : r3.length ≤ r2.length := (skipExponent_suffix h3).length_le
    show r3.length < ds.length
    omega
  unfold scanNumber at h
  split at h
  · have := key _ _ h
    simp only [List.length_cons]; omega
  · exact key _ _ h

theorem length_of_scanToken {cs rest : List Char} {t : Token} (h : scanToken cs = some (t, rest)) :
    rest.length < cs.length := by
  unfold scanToken at h
  split at h
  case h_7 cs =>
    obtain ⟨⟨us, r⟩, hr, he⟩ := Option.map_eq_some_iff.1 h
    cases he
    have := length_of_scanText hr
    simp only [List.length_cons]; omega
  case h_11 => exact length_of_scanNumber h
  all_goals
    cases h
    simp only [List.length_cons]; omega

/-- two budgets that both cover the text give the same tokens -/
theorem tokensWithin_congr (n : ℕ) {m : ℕ} {cs : List Char} (hn : cs.length ≤ n) (hm : cs.length ≤ m) :
    tokensWithin n cs = tokensWithin m cs := by
  induction n generalizing m cs with
  | zero =>
    rw [List.eq_nil_of_length_eq_zero (Nat.le_zero.1 hn)]
    simp [tokensWithin]
  | succ n ih =>
    cases cs with
    | nil => simp [tokensWithin]
    | cons c cs =>
      simp only [List.length_cons] at hn hm
      obtain ⟨m, rfl⟩ : ∃ k, m = k + 1 := ⟨m - 1, by omega⟩
      simp only [tokensWithin]
      split_ifs
      · exact ih (by omega) (by omega)
      · split
        · rfl
        · next t rest hs =>
          have := length_of_scanToken hs
          simp only [List.length_cons] at this
          rw [ih (m := m) (by omega) (by omega)]

/-! ## Equations for the tokens of a text -/

theorem isSpace_iff (c : Char) : isSpace c = true ↔ c = ' ' ∨ c = '\t' ∨ c = '\n' ∨ c = '\r' := by
  simp [isSpace, or_assoc]

theorem tokenize_nil : tokenize [] = some [] := rfl

theorem tokenize_space {c : Char} (cs : List Char) (h : isSpace c = true) : tokenize (c :: cs) = tokenize cs := by
  simp [tokenize, tokensWithin, h]

theorem tokenize_spaces {blanks : List Char} (cs : List Char) (h : ∀ c ∈ blanks, isSpace c = true) :
    tokenize (blanks ++ cs) = tokenize cs := by
  induction blanks with
  | nil => rfl
  | cons c blanks ih =>
    rw [List.cons_append, tokenize_space _ (h c List.mem_cons_self), ih fun d hd => h d (List.mem_cons_of_mem c hd)]

/-- a text that starts with a token has that token first, and then the tokens of what follows -/
theorem tokenize_token {c : Char} {cs rest : List Char} {t : Token} (hc : isSpace c = false)
    (h : scanToken (c :: cs) = some (t, rest)) : tokenize (c :: cs) = (tokenize rest).map (t :: ·) := by
  have hl := length_of_scanToken h
  simp only [List.length_cons] at hl
  have hr : tokensWithin cs.length rest = tokenize rest := tokensWithin_congr _ (by omega) le_rfl
  rw [← hr]
  simp [tokenize, tokensWithin, hc, h]

/-! ## The tokens of a value -/

mutual

/-- the tokens that a value is written with; a foreign value is written as null -/
def tokensOf : Json → List Token
  | .null => [.null]
  | .bool b => [.bool b]
  | .int n => [.int n]
  | .str s => [.str s]
  | .list [] => [.listOpen, .listClose]
  | .list (j :: js) => .listOpen :: (tokensOf j ++ itemTokens js)
  | .object [] => [.objectOpen, .objectClose]
  | .object ((key, j) :: ms) => .objectOpen :: .str key :: .colon :: (tokensOf j ++ memberTokens ms)
  | .foreign => [.null]

/-- the tokens of the items after the first one, and of the closing bracket -/
def itemTokens : List Json → List Token
  | [] => [.listClose]
  | j :: js => .comma :: (tokensOf j ++ itemTokens js)

/-- the tokens of the members after the first one, and of the closing brace -/
def memberTokens : List (String × Json) → List Token
  | [] => [.objectClose]
  | (key, j) :: ms => .comma :: .str key :: .colon :: (tokensOf j ++ memberTokens ms)

end

theorem tokenize_newLine (depth : ℕ) (cs : List Char) : tokenize (newLine depth ++ cs) = tokenize cs := by
  apply tokenize_spaces
  intro c hc
  rcases List.mem_cons.1 hc with rfl | hc
  · rfl
  · rw [List.eq_of_mem_replicate hc]; rfl

/-- the first character of a number is no blank -/
theorem isSpace_of_number {c : Char} (h : Text.isDigit c = true ∨ c = '-') : isSpace c = false := by
  by_contra hs
  rw [Bool.not_eq_false, isSpace_iff] at hs
  rcases hs with rfl | rfl | rfl | rfl <;> exact absurd h (by decide)

theorem endsNumber_spreadItems (depth : ℕ) (js : List Json) (rest : List Char) :
    EndsNumber (spreadItems depth js ++ rest) := by
  cases js <;> (intro c hc; cases hc; decide)

theorem endsNumber_spreadMembers (depth : ℕ) (ms : List (String × Json)) (rest : List Char) :
    EndsNumber (spreadMembers depth ms ++ rest) := by
  cases ms <;> (intro c hc; cases hc; decide)

theorem tokenize_intChars (n : ℤ) {rest : List Char} (hr : EndsNumber rest) :
    tokenize (intChars n ++ rest) = (tokenize rest).map (.int n :: ·) := by
  have hs := scanToken_intChars n hr
  obtain ⟨c, cs, hc, hd⟩ := exists_intChars_eq_cons n
  have hb : isSpace c = false := isSpace_of_number hd
  rw [hc, List.cons_append] at hs ⊢
  exact tokenize_token hb hs

theorem tokenize_quote (s : String) (rest : List Char) :
    tokenize (quote s ++ rest) = (tokenize rest).map (.str s :: ·) := by
  have hs := scanToken_quote s rest
  rw [quote, List.cons_append, List.cons_append] at hs ⊢
  exact tokenize_token rfl hs

/-- a key with its colon -/
theorem tokenize_name (key : String) (cs : List Char) :
    tokenize (quote key ++ ':' :: cs) = (tokenize cs).map fun ts => .str key :: .colon :: ts := by
  rw [tokenize_quote, tokenize_token rfl rfl, Option.map_map]
  rfl

/-- a key with its colon and the blank after it -/
theorem tokenize_key (key : String) (cs : List Char) :
    tokenize (quote key ++ ':' :: ' ' :: cs) = (tokenize cs).map fun ts => .str key :: .colon :: ts := by
  rw [tokenize_name, tokenize_space _ rfl]

mutual

theorem tokenize_spreadChars (depth : ℕ) (j : Json) {rest : List Char} (hr : EndsNumber rest) :
    tokenize (spreadChars depth j ++ rest) = (tokenize rest).map (tokensOf j ++ ·) := by
  cases j with
  | null => exact tokenize_token rfl rfl
  | foreign => exact tokenize_token rfl rfl
  | bool b => cases b <;> exact tokenize_token rfl rfl
  | int n => exact tokenize_intChars n hr
  | str s => exact tokenize_quote s rest
  | list items =>
    cases items with
    | nil =>
      rw [spreadChars, List.cons_append, tokenize_token rfl rfl, List.cons_append, tokenize_token rfl rfl]
      simp [tokensOf, Function.comp_def]
    | cons j js =>
      have hj := tokenize_spreadChars (depth + 1) j (endsNumber_spreadItems depth js rest)
      have hi := tokenize_spreadItems depth js rest
      rw [spreadChars, List.cons_append, tokenize_token rfl rfl, List.append_assoc, tokenize_newLine,
        List.append_assoc, hj, hi]
      simp [tokensOf, Function.comp_def]
  | object members =>
    cases members with
    | nil =>
      rw [spreadChars, List.cons_append, tokenize_token rfl rfl, List.cons_append, tokenize_token rfl rfl]
      simp [tokensOf, Function.comp_def]
    | cons m ms =>
      obtain ⟨key, j⟩ := m
      have hj := tokenize_spreadChars (depth + 1) j (endsNumber_spreadMembers depth ms rest)
      have hm := tokenize_spreadMembers depth ms rest
      rw [spreadChars, List.cons_append, tokenize_token rfl rfl, List.append_assoc, tokenize_newLine,
        List.append_assoc, List.cons_append, List.cons_append, tokenize_key, List.append_assoc, hj, hm]
      simp [tokensOf, Function.comp_def]

theorem tokenize_spreadItems (depth : ℕ) (js : List Json) (rest : List Char) :
    tokenize (spreadItems depth js ++ rest) = (tokenize rest).map (itemTokens js ++ ·) := by
  cases js with
  | nil =>
    rw [spreadItems, List.append_assoc, tokenize_newLine]
    exact tokenize_token rfl rfl
  | cons j js =>
    have hj := tokenize_spreadChars (depth + 1) j (endsNumber_spreadItems depth js rest)
    have hi := tokenize_spreadItems depth js rest
    rw [spreadItems, List.cons_append, tokenize_token rfl rfl, List.append_assoc, tokenize_newLine,
      List.append_assoc, hj, hi]
    simp [itemTokens, Function.comp_def]

theorem tokenize_spreadMembers (depth : ℕ) (ms : List (String × Json)) (rest : List Char) :
    tokenize (spreadMembers depth ms ++ rest) = (tokenize rest).map (memberTokens ms ++ ·) := by
  cases ms with
  | nil =>
    rw [spreadMembers, List.append_assoc, tokenize_newLine]
    exact tokenize_token rfl rfl
  | cons m ms =>
    obtain ⟨key, j⟩ := m
    have hj := tokenize_spreadChars (depth + 1) j (endsNumber_spreadMembers depth ms rest)
    have hm := tokenize_spreadMembers depth ms rest
    rw [spreadMembers, List.cons_append, tokenize_token rfl rfl, List.append_assoc, tokenize_newLine,
      List.append_assoc, List.cons_append, List.cons_append, tokenize_key, List.append_assoc, hj, hm]
    simp [memberTokens, Function.comp_def]

end

/-- **The spread form has the tokens of its value**, also when blanks follow it. -/
theorem tokenize_spread (j : Json) {blanks : List Char} (h : ∀ c ∈ blanks, isSpace c = true) :
    tokenize (spreadChars 0 j ++ blanks) = some (tokensOf j) := by
  have hr : EndsNumber blanks := by
    cases blanks with
    | nil => intro c hc; cases hc
    | cons b blanks =>
      intro c hc
      cases hc
      rcases (isSpace_iff b).1 (h b List.mem_cons_self) with rfl | rfl | rfl | rfl <;> decide
  have hb := tokenize_spaces [] h
  rw [List.append_nil] at hb
  rw [tokenize_spreadChars 0 j hr, hb, tokenize_nil, Option.map_some, List.append_nil]

/-! ### The compact form -/

theorem endsNumber_compactItems (js : List Json) (rest : List Char) : EndsNumber (compactItems js ++ rest) := by
  cases js <;> (intro c hc; cases hc; decide)

theorem endsNumber_compactMembers (ms : List (String × Json)) (rest : List Char) :
    EndsNumber (compactMembers ms ++ rest) := by
  cases ms <;> (intro c hc; cases hc; decide)

mutual

theorem tokenize_compactChars (j : Json) {rest : List Char} (hr : EndsNumber rest) :
    tokenize (compactChars j ++ rest) = (tokenize rest).map (tokensOf j ++ ·) := by
  cases j with
  | null => exact tokenize_token rfl rfl
  | foreign => exact tokenize_token rfl rfl
  | bool b => cases b <;> exact tokenize_token rfl rfl
  | int n => exact tokenize_intChars n hr
  | str s => exact tokenize_quote s rest
  | list items =>
    cases items with
    | nil =>
      rw [compactChars, List.cons_append, tokenize_token rfl rfl, List.cons_append, tokenize_token rfl rfl]
      simp [tokensOf, Function.comp_def]
    | cons j js =>
      have hj := tokenize_compactChars j (endsNumber_compactItems js rest)
      have hi := tokenize_compactItems js rest
      rw [compactChars, List.cons_append, tokenize_token rfl rfl, List.append_assoc, hj, hi]
      simp [tokensOf, Function.comp_def]
  | object members =>
    cases members with
    | nil =>
      rw [compactChars, List.cons_append, tokenize_token rfl rfl, List.cons_append, tokenize_token rfl rfl]
      simp [tokensOf, Function.comp_def]
    | cons m ms =>
      obtain ⟨key, j⟩ := m
      have hj := tokenize_compactChars j (endsNumber_compactMembers ms rest)
      have hm := tokenize_compactMembers ms rest
      rw [compactChars, List.cons_append, tokenize_token rfl rfl, List.append_assoc, List.cons_append, tokenize_name,
        List.append_assoc, hj, hm]
      simp [tokensOf, Function.comp_def]

theorem tokenize_compactItems (js : List Json) (rest : List Char) :
    tokenize (compactItems js ++ rest) = (tokenize rest).map (itemTokens js ++ ·) := by
  cases js with
  | nil => exact tokenize_token rfl rfl
  | cons j js =>
    have hj := tokenize_compactChars j (endsNumber_compactItems js rest)
    have hi := tokenize_compactItems js rest
    rw [compactItems, List.cons_append, tokenize_token rfl rfl, List.append_assoc, hj, hi]
    simp [itemTokens, Function.comp_def]

theorem tokenize_compactMembers (ms : List (String × Json)) (rest : List Char) :
    tokenize (compactMembers ms ++ rest) = (tokenize rest).map (memberTokens ms ++ ·) := by
  cases ms with
  | nil => exact tokenize_token rfl rfl
  | cons m ms =>
    obtain ⟨key, j⟩ := m
    have hj := tokenize_compactChars j (endsNumber_compactMembers ms rest)
    have hm := tokenize_compactMembers ms rest
    rw [compactMembers, List.cons_append, tokenize_token rfl rfl, List.append_assoc, List.cons_append, tokenize_name,
      List.append_assoc, hj, hm]
    simp [memberTokens, Function.comp_def]

end

/-- **The compact form has the tokens of its value.** -/
theorem tokenize_compact (j : Json) : tokenize (compactChars j) = some (tokensOf j) := by
  have hends : EndsNumber [] := by
    intro c hc
    cases hc
  have h := tokenize_compactChars j hends
  rwa [List.append_nil, tokenize_nil, Option.map_some, List.append_nil] at h

end Json

end ByteMachine
