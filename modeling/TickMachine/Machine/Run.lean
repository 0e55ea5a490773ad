import TickMachine.Machine.Step

/-! # Runs

A run repeats steps until the machine stops or fails. A program may run for ever, so a run is
given the number of steps it may take, and has no outcome when they do not suffice. More steps
never change an outcome. -/

namespace TickMachine

/-- What a finished run produced. -/
structure Report where
  output : List UInt8
  ticks : Nat
  instructions : Nat
  halted : Bool
  deriving DecidableEq, Repr, Inhabited

/-- How a run ended, with the machine as the run left it. -/
abbrev Outcome := EStateM.Result Fault Machine Report

namespace Machine

/-- The report of a machine that has stopped. -/
def report (machine : Machine) : Report where
  output := machine.path.output.toList
  ticks := machine.ticks
  instructions := machine.instructions
  halted := machine.status == .halted

/-- The machine after its output has been taken away. -/
def drain (machine : Machine) : Machine :=
  { machine with path := { machine.path with output := #[] } }

/-- The end of the run of a machine that has stopped. -/
def finish (machine : Machine) : Outcome := .ok machine.report machine.drain

/-- Runs the machine for at most `fuel` steps. -/
def run : (fuel : Nat) → Machine → Option Outcome
  | 0, _ => none
  | fuel + 1, machine =>
    match step machine with
    | .ok true machine => run fuel machine
    | .ok false machine => some machine.finish
    | .error fault machine => some (.error fault machine)

end Machine

end TickMachine
