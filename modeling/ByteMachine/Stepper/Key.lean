/-
Keys: what each does to the stepper.

Contents:
- `Key`: the keys that are told apart;
- `Stepper.press`: what a key does;
- `Stepper.play`: keys one after the other, up to the one that ends the session.
-/
import ByteMachine.Stepper

namespace ByteMachine

inductive Key
  | char (c : Char)
  | up
  | down
  /-- any other key -/
  | other
  deriving DecidableEq, Repr

namespace Stepper

/-- what a key does; only the lower-case letters count -/
def press (s : Stepper) (now : Nat) : Key → Stepper
  | .char 'q' => { s with quit := true }
  | .char 's' => s.step
  | .char 'r' => s.run now
  | .char 'p' => s.pause
  | .char ' ' => if s.machine.isRunning then s.pause else s.run now
  | .char 'x' => s.reset
  | .up => s.scroll false
  | .down => s.scroll true
  | _ => s

/-- the keys one after the other, all at one time, up to the one that ends the session; after each the clock is asked -/
def play (s : Stepper) (now : Nat) : List Key → Stepper
  | [] => s
  | key :: keys =>
    let s := (s.press now key).tick now
    if s.quit then s else s.play now keys

end Stepper

end ByteMachine
