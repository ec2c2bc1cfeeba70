/-
Programs: lists of statements. A statement is its source text, trimmed; what it does follows from the text.

Contents:
- `Statement`: a trimmed text, and its micro-operation `Statement.op`;
- `Program`: a list of statements;
- `Program.ofTexts`, `Program.sources`: programs from texts and back;
- `Program.unknowns`: the places of the statements that are no transfer.

Main statement: `ofTexts_sources` (the sources of a program make that program again).
-/
import ByteMachine.MicroOp.Decode

namespace ByteMachine

/-- one statement of a program -/
structure Statement where
  source : String
  isTrimmed : Text.trimmed source = source
  deriving DecidableEq

namespace Statement

def ofText (s : String) : Statement :=
  ⟨Text.trimmed s, Text.trimmed_trimmed s⟩

/-- the micro-operation that the source stands for -/
def op (s : Statement) : MicroOp :=
  MicroOp.decode s.source

/-- the canonical text; what is no transfer is marked -/
def canonical (s : Statement) : String :=
  match s.op with
  | .unknown text => text ++ "  ; ??"
  | op => op.text

@[simp] theorem ofText_source (s : Statement) : ofText s.source = s := by
  cases s with
  | mk source h => simp [ofText, h]

end Statement

/-- a linear sequence of statements -/
structure Program where
  statements : List Statement := []
  deriving DecidableEq

namespace Program

def ofTexts (texts : List String) : Program :=
  ⟨texts.map .ofText⟩

/-- the source texts of the statements -/
def sources (p : Program) : List String :=
  p.statements.map Statement.source

def length (p : Program) : Nat :=
  p.statements.length

def isEmpty (p : Program) : Bool :=
  p.statements.isEmpty

def statement? (p : Program) (i : Nat) : Option Statement :=
  p.statements[i]?

/-- the places of the statements that are no transfer -/
def unknowns (p : Program) : List Nat :=
  (p.statements.zipIdx.filter fun entry => entry.1.op.isUnknown).map Prod.snd

/-- the sources of a program make that program again -/
@[simp] theorem ofTexts_sources (p : Program) : ofTexts p.sources = p := by
  cases p with
  | mk statements => simp [ofTexts, sources, Function.comp_def]

@[simp] theorem length_ofTexts (texts : List String) : (ofTexts texts).length = texts.length := by
  simp [ofTexts, length]

end Program

end ByteMachine
