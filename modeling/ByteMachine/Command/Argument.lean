/-
Arguments: what a row of command line arguments says, before any value is read.

Rules:
- a long option starts with two dashes; its value follows an equals sign, or is the next argument;
- short options start with one dash and may stand in one argument; the first that takes a value takes what is left of
  the argument, without a leading equals sign, or else the next argument;
- the next argument is no value if it looks like an option;
- two dashes alone end the options;
- everything else is an operand; where operands may be negative, so is a dash before a number;
- reading ends at the first argument that is not understood.

Contents:
- `Flag`, `Slot`: what can be switched on, and the places that values go to;
- `Grammar`: the options and operands of a command;
- `Given`: what one argument, or a part of it, says;
- `Grammar.read`: the items of a row of arguments, and whether all of it was understood;
- `settled`: the items that are looked into. A value that is an argument of its own is not, if the next argument is not
  understood.
-/

namespace ByteMachine

/-- what can be switched on -/
inductive Flag
  | verbose
  | version
  | help
  | json
  | strict
  | trace
  deriving DecidableEq, Repr

/-- the places that values go to -/
inductive Slot
  | aluOp
  | byteA
  | byteB
  | intA
  | intB
  | adderOp
  | mode
  | program
  | snapshot
  | preset
  | restoreFrom
  | config
  | interval
  | poke
  | register
  | maxSteps
  | saveTo
  deriving DecidableEq, Repr

/-- what an option is for -/
inductive Meaning
  | flag (f : Flag)
  | value (s : Slot)
  deriving DecidableEq, Repr

structure OptionForm where
  long : String
  short : Option Char := none
  meaning : Meaning
  deriving DecidableEq, Repr

structure Grammar where
  options : List OptionForm
  /-- the operands in their order; all but the first few may be left out -/
  operands : List Slot := []
  /-- may an operand be a negative number? -/
  signed : Bool := false
  deriving DecidableEq, Repr

/-- what one argument, or a part of it, says -/
inductive Given
  | flag (f : Flag)
  /-- an option whose value is the next argument -/
  | opened (s : Slot)
  /-- a value in one argument with its option -/
  | attached (s : Slot) (text : String)
  /-- a value in an argument of its own -/
  | separate (s : Slot) (text : String)
  deriving DecidableEq, Repr

/-- how an argument with options ends -/
inductive Continuation
  | complete
  /-- a value must follow -/
  | awaits (s : Slot)
  /-- it is not understood -/
  | broken
  deriving DecidableEq, Repr

/-- does a text after a dash look like a number? Digits, with at most one point and one exponent sign after the first
digit, the sign not at the end. -/
def looksNumeric (cs : List Char) : Bool :=
  let isDigit (c : Char) : Bool := '0' ≤ c && c ≤ '9'
  let (mantissa, rest) := cs.span fun c => c != 'e' && c != 'E'
  let fraction := (mantissa.dropWhile isDigit).drop 1
  let isMantissa :=
    mantissa.all isDigit || (mantissa.head?.any isDigit && (mantissa.dropWhile isDigit).head? == some '.' &&
      fraction.all isDigit)
  match rest with
  | [] => isMantissa
  | _ :: exponent => isMantissa && !mantissa.isEmpty && !exponent.isEmpty && exponent.all isDigit

namespace Grammar

def long? (g : Grammar) (name : List Char) : Option Meaning :=
  (g.options.find? fun o => o.long.toList == name).map OptionForm.meaning

def short? (g : Grammar) (c : Char) : Option Meaning :=
  (g.options.find? fun o => o.short == some c).map OptionForm.meaning

/-- what a long option says, given the text after its dashes -/
def readLong (g : Grammar) (cs : List Char) : List Given × Continuation :=
  let (name, rest) := cs.span (· != '=')
  match g.long? name, rest with
  | some (.flag f), [] => ([.flag f], .complete)
  | some (.value s), [] => ([.opened s], .awaits s)
  | some (.value s), _ :: value => ([.attached s (String.ofList value)], .complete)
  | _, _ => ([], .broken)

/-- what a row of short options says -/
def readShort (g : Grammar) : List Char → List Given × Continuation
  | [] => ([], .complete)
  | c :: cs =>
    match g.short? c with
    | some (.flag f) =>
      let (items, k) := g.readShort cs
      (.flag f :: items, k)
    | some (.value s) =>
      match cs with
      | [] => ([.opened s], .awaits s)
      | '=' :: value => ([.attached s (String.ofList value)], .complete)
      | value => ([.attached s (String.ofList value)], .complete)
    | none => ([], .broken)

/-- the kinds of arguments -/
inductive Shape
  /-- two dashes alone -/
  | divider
  | long (cs : List Char)
  | short (cs : List Char)
  | plain
  deriving DecidableEq, Repr

def shape (g : Grammar) (operands : List Slot) : List Char → Shape
  | ['-', '-'] => .divider
  | '-' :: '-' :: cs => .long cs
  | '-' :: c :: cs => if g.signed && !operands.isEmpty && looksNumeric (c :: cs) then .plain else .short (c :: cs)
  | _ => .plain

/-- what an argument with options says -/
def readOption (g : Grammar) : Shape → List Given × Continuation
  | .long cs => g.readLong cs
  | .short cs => g.readShort cs
  | _ => ([], .broken)

/-- arguments that can only be operands -/
def readPlain : List Slot → List String → List Given × Bool
  | _, [] => ([], true)
  | [], _ :: _ => ([], false)
  | s :: operands, arg :: args =>
    let (items, complete) := readPlain operands args
    (.separate s arg :: items, complete)

/-- the items of the arguments, while these operands are open and the argument before ended like this -/
def readFrom (g : Grammar) (operands : List Slot) : Continuation → List String → List Given × Bool
  | .broken, _ => ([], false)
  | k, [] => ([], k == .complete)
  | k, arg :: args =>
    match g.shape operands arg.toList, k, operands with
    | .plain, .awaits s, _ =>
      let (items, complete) := g.readFrom operands .complete args
      (.separate s arg :: items, complete)
    | .plain, _, s :: operands =>
      let (items, complete) := g.readFrom operands .complete args
      (.separate s arg :: items, complete)
    | .plain, _, [] => ([], false)
    | _, .awaits _, _ => ([], false)
    | .divider, _, _ => readPlain operands args
    | shape, _, _ =>
      let (items, k) := g.readOption shape
      let (more, complete) := g.readFrom operands k args
      (items ++ more, complete)

/-- the items of a row of arguments; is all of it understood? -/
def read (g : Grammar) (args : List String) : List Given × Bool :=
  g.readFrom g.operands .complete args

end Grammar

/-- the items that are looked into: a value in an argument of its own is not, if the next argument is not understood -/
def settled : List Given × Bool → List Given
  | (items, true) => items
  | (items, false) =>
    match items.getLast? with
    | some (.separate _ _) => items.dropLast
    | _ => items

end ByteMachine
