/-
Assembly: program text, one statement per line. A comment starts at `;`, `//` or `#` and ends with its line; lines that
are blank without their comment count for nothing.

Contents:
- `statementsOf`: the statements of a text, each with the number of its line;
- `Program.assemble`: the program of a text; a text without statements has none;
- `Program.assembleStrict`: likewise, but every statement must be a transfer;
- `diagnose`: the statements that are no transfer.
-/
import ByteMachine.Program

namespace ByteMachine

/-! ## Statements of a text -/

/-- the line up to its comment -/
def stripComment : List Char → List Char
  | [] => []
  | ';' :: _ => []
  | '#' :: _ => []
  | '/' :: '/' :: _ => []
  | c :: cs => c :: stripComment cs

/-- a statement of a text and the number of its line, counted from one -/
structure SourceStatement where
  line : Nat
  text : String
  deriving DecidableEq, Repr

/-- the statements of a text, from the first line to the last -/
def statementsOf (source : String) : List SourceStatement :=
  ((Text.lines source.toList).zipIdx 1).filterMap fun (line, number) =>
    match Text.trim (stripComment line) with
    | [] => none
    | text => some ⟨number, String.ofList text⟩

/-! ## Assembling -/

/-- why a text is no program -/
inductive AssemblyError
  /-- it has no statement -/
  | empty
  /-- this statement, the first such one, is no transfer -/
  | unknownStatement (statement : SourceStatement)
  deriving DecidableEq, Repr

def AssemblyError.message : AssemblyError → String
  | .empty => "program contains no statements"
  | .unknownStatement s => "unknown micro-operation on line " ++ Text.numeral s.line ++ ": " ++ s.text

def SourceStatement.isUnknown (s : SourceStatement) : Bool :=
  (MicroOp.decode s.text).isUnknown

namespace Program

/-- the program of these statements -/
def ofStatements? (statements : List SourceStatement) : Except AssemblyError Program :=
  if statements.isEmpty then .error .empty else .ok (ofTexts (statements.map SourceStatement.text))

def assemble (source : String) : Except AssemblyError Program :=
  ofStatements? (statementsOf source)

def assembleStrict (source : String) : Except AssemblyError Program :=
  match (statementsOf source).find? SourceStatement.isUnknown with
  | some s => .error (.unknownStatement s)
  | none => assemble source

end Program

/-! ## Diagnostics -/

/-- the statements of a text that are no transfer -/
def diagnose (source : String) : List SourceStatement :=
  (statementsOf source).filter SourceStatement.isUnknown

/-- what is said of every statement that is no transfer -/
def unknownRemark : String :=
  "not a recognised micro-operation"

/-- the diagnostic as a line of text -/
def SourceStatement.diagnostic (s : SourceStatement) : String :=
  "line " ++ Text.numeral s.line ++ ": " ++ unknownRemark ++ ": " ++ s.text

end ByteMachine
