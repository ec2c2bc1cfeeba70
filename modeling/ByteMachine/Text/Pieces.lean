/-
Texts cut at a mark.

Contents:
- `pieces`: what stands before, between and after the marks; there is one piece more than there are marks, and some may
  be empty.

Main statement: `pieces_ne_nil` (there is always one).
-/

namespace ByteMachine.Text

/-- what stands before, between and after the marks -/
def pieces (mark : Char) : List Char → List (List Char)
  | [] => [[]]
  | c :: cs =>
    if c = mark then [] :: pieces mark cs
    else
      match pieces mark cs with
      | [] => [[c]]
      | p :: ps => (c :: p) :: ps

theorem pieces_ne_nil (mark : Char) (cs : List Char) : pieces mark cs ≠ [] := by
  cases cs with
  | nil => simp [pieces]
  | cons c cs =>
    unfold pieces
    split
    · simp
    · split <;> simp

end ByteMachine.Text
