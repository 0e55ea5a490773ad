import TickMachine.Machine.Run

/-! # Histories

Calls of `step` one after the other, whatever each of them answers: a call after a failure tries
the same word again, and a call after the end changes nothing. -/

namespace TickMachine

/-- What a finished run answers: its report or its fault. -/
def Outcome.answer : Outcome → Except Fault Report
  | .ok report _ => .ok report
  | .error fault _ => .error fault

/-- The machine that a finished run leaves. -/
def Outcome.machine : Outcome → Machine
  | .ok _ machine => machine
  | .error _ machine => machine

namespace Machine

/-- What a call of `step` answers. -/
def answer (machine : Machine) : Except Fault Bool :=
  match step machine with
  | .ok goesOn _ => .ok goesOn
  | .error fault _ => .error fault

/-- The machine after a call of `step`. -/
def next (machine : Machine) : Machine :=
  match step machine with
  | .ok _ machine => machine
  | .error _ machine => machine

/-- The machine after a number of calls of `step`. -/
def after : Nat → Machine → Machine
  | 0, machine => machine
  | calls + 1, machine => after calls machine.next

theorem after_add (machine : Machine) (first second : Nat) :
    machine.after (first + second) = (machine.after first).after second := by
  induction first generalizing machine with
  | zero => rw [Nat.zero_add, after]
  | succ first ih =>
    rw [Nat.succ_add]
    exact ih machine.next

theorem after_succ (machine : Machine) (calls : Nat) :
    machine.after (calls + 1) = (machine.after calls).next :=
  after_add machine calls 1

end Machine

end TickMachine
