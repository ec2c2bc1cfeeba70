/-
Blank characters, and what is cut with them. A character is blank when it has the Unicode property White_Space:
twenty-five code points in ten ranges. Zero-width characters and the information separators are not blank.

Contents:
- `isBlank`: the class;
- `trim`: a text without the blank characters at its two ends;
- `squeeze`: a text without any blank character;
- `lines`: a text cut at its line feeds. A carriage return right before a line feed goes with it, and a line feed at
  the very end opens no further line.

Main statement: `trim_trim` (trimming twice is trimming once).
-/

namespace ByteMachine.Text

/-! ## The class -/

/-- the code points with the property White_Space, as inclusive ranges -/
def blankRanges : List (Nat × Nat) :=
  [(0x09, 0x0d), (0x20, 0x20), (0x85, 0x85), (0xa0, 0xa0), (0x1680, 0x1680), (0x2000, 0x200a), (0x2028, 0x2029),
    (0x202f, 0x202f), (0x205f, 0x205f), (0x3000, 0x3000)]

/-- does `c` have the property White_Space? -/
def isBlank (c : Char) : Bool :=
  blankRanges.any fun r => r.1 ≤ c.toNat && c.toNat ≤ r.2

/-! ## Cutting -/

/-- the text without its leading blank characters -/
def trimStart (cs : List Char) : List Char :=
  cs.dropWhile isBlank

/-- the text without its trailing blank characters -/
def trimEnd (cs : List Char) : List Char :=
  (cs.reverse.dropWhile isBlank).reverse

/-- the text without the blank characters at its two ends -/
def trim (cs : List Char) : List Char :=
  trimEnd (trimStart cs)

/-- the text without any blank character -/
def squeeze (cs : List Char) : List Char :=
  cs.filter fun c => !isBlank c

/-- `trim` on strings -/
def trimmed (s : String) : String :=
  String.ofList (trim s.toList)

theorem dropWhile_dropWhile (p : Char → Bool) (cs : List Char) :
    (cs.dropWhile p).dropWhile p = cs.dropWhile p := by
  induction cs with
  | nil => rfl
  | cons c cs ih => by_cases h : p c <;> simp [h, ih]

theorem trimEnd_trimEnd (cs : List Char) : trimEnd (trimEnd cs) = trimEnd cs := by
  simp [trimEnd, dropWhile_dropWhile]

/-- what is left after cutting the end starts as before, unless nothing is left -/
theorem trimStart_trimEnd_of_fixed (cs : List Char) (h : trimStart cs = cs) : trimStart (trimEnd cs) = trimEnd cs := by
  cases cs with
  | nil => rfl
  | cons c cs =>
    have hc : isBlank c = false := by
      cases hb : isBlank c with
      | false => rfl
      | true =>
        have hl := congrArg List.length h
        have hs : (List.dropWhile isBlank cs).length ≤ cs.length := (List.dropWhile_sublist isBlank).length_le
        simp only [trimStart, List.dropWhile_cons, hb, ite_true, List.length_cons] at hl
        omega
    have : trimEnd (c :: cs) = c :: trimEnd cs := by
      simp only [trimEnd, List.reverse_cons, List.dropWhile_append]
      split
      · next he =>
        have he' : List.dropWhile isBlank cs.reverse = [] := by simpa using he
        simp [he', hc]
      · simp
    rw [this]
    simp [trimStart, hc]

/-- trimming twice is trimming once -/
theorem trim_trim (cs : List Char) : trim (trim cs) = trim cs := by
  have h : trimStart (trimStart cs) = trimStart cs := dropWhile_dropWhile isBlank cs
  simp only [trim]
  rw [trimStart_trimEnd_of_fixed _ h, trimEnd_trimEnd]

theorem trimmed_trimmed (s : String) : trimmed (trimmed s) = trimmed s := by
  simp [trimmed, trim_trim]

/-! ## Lines -/

/-- the lines of a text, without their ends -/
def lines : List Char → List (List Char)
  | [] => []
  | '\n' :: cs => [] :: lines cs
  | '\r' :: '\n' :: cs => [] :: lines cs
  | c :: cs =>
    match lines cs with
    | [] => [[c]]
    | l :: ls => (c :: l) :: ls

end ByteMachine.Text
