import TickMachine.Proofs.Machine.Memory
import TickMachine.Proofs.Machine.StepCases

/-! # What stores leave in memory

A store leaves data in its cell, and nothing but a store writes to memory. However long a program
runs and whatever it overwrites, each cell holds the word that was loaded there, or data. -/

namespace TickMachine

/-- Whether a word is plain data. -/
def Word.IsData (word : Word) : Prop := ∃ value, word = .data value

namespace Memory

/-- The second memory is the first one with data in some of its cells. -/
structure Overwritten (before after : Memory) : Prop where
  size : after.size = before.size
  cells : ∀ address word, after.word? address = some word →
    before.word? address = some word ∨ word.IsData

theorem Overwritten.refl (memory : Memory) : Overwritten memory memory :=
  ⟨rfl, fun _ _ found => .inl found⟩

theorem Overwritten.trans {first second third : Memory} (h : Overwritten first second)
    (h' : Overwritten second third) : Overwritten first third := by
  refine ⟨h'.size.trans h.size, ?_⟩
  intro address word found
  rcases h'.cells address word found with kept | data
  · exact h.cells address word kept
  · exact .inr data

theorem overwritten_write {memory written : Memory} {address value : Int32}
    (done : memory.write address value = .ok written) : Overwritten memory written := by
  rw [write_eq] at done
  split at done
  · cases done
    refine ⟨Array.size_setIfInBounds, ?_⟩
    intro place word found
    rw [stored, word?, Array.getElem?_setIfInBounds] at found
    split at found
    · split at found
      · cases found
        exact .inr ⟨value, rfl⟩
      · cases found
    · exact .inl found
  · cases done

/-- A loaded memory holds the program, and data behind it. -/
theorem word?_load {program : List Word} {capacity address : Nat} {word : Word}
    (found : (load program capacity).word? address = some word) :
    program[address]? = some word ∨ word.IsData := by
  rw [load, word?, Array.getElem?_append, List.getElem?_toArray] at found
  split at found
  · exact .inl found
  · obtain ⟨inside, zero⟩ := Array.getElem?_eq_some_iff.1 found
    rw [Array.getElem_replicate] at zero
    exact .inr ⟨0, zero.symm⟩

end Memory

namespace Machine

variable {machine last : Machine}

/-- An instruction stores data or leaves memory as it is. -/
theorem overwritten_of_execute {instruction : Instruction} {goesOn : Bool}
    (done : execute instruction machine = .ok goesOn last) :
    machine.path.memory.Overwritten last.path.memory := by
  cases instruction with
  | nop | halt | loadImmediate | send =>
    cases done
    exact .refl _
  | arithmetic op target left right =>
    cases done
    show machine.path.memory.Overwritten (compute machine.path op _ _).memory
    rw [memory_compute]
    exact .refl _
  | load target address =>
    rw [execute_load] at done
    simp only at done
    split at done
    · cases done
      exact .refl _
    · cases done
  | store source address =>
    rw [execute_store] at done
    simp only at done
    split at done
    · next written =>
      cases done
      exact Memory.overwritten_write written
    · cases done
  | receive target =>
    rw [execute_receive] at done
    split at done
    · cases done
    · cases done
      exact .refl _
  | branch op left right target =>
    have compared : machine.path.memory.Overwritten
        (compute machine.path op (machine.register left) (machine.register right)).memory := by
      rw [memory_compute]
      exact .refl _
    rw [execute_branch] at done
    simp only at done
    split at done
    · split at done
      · cases done
        exact compared
      · cases done
    · cases done
      exact compared

theorem step_of_performs {instruction : Instruction} (performs : machine.Performs instruction) :
    step machine = execute instruction machine := by
  obtain ⟨decoded, ⟨running, word, fetched, decode⟩, -, allowed, found⟩ := performs
  rw [step_of_running machine running, fetched]
  simp only [dispatch_eq, decode, allowed, found]

theorem overwritten_next (machine : Machine) :
    machine.path.memory.Overwritten machine.next.path.memory := by
  cases stepped machine with
  | rests stopped answer next | leaves leaves answer next | halts halts answer next
  | undecoded running fetched refused answer next | exceeds decodes refused answer next
  | misnamed decodes refused answer next =>
    rw [next]
    exact .refl _
  | completes performs answer =>
    have done := step_of_ok answer
    rw [step_of_performs performs] at done
    exact overwritten_of_execute done
  | fails performs failed answer left =>
    rw [left.intact.memory]
    exact .refl _

/-- No number of steps puts anything but data into memory. -/
theorem overwritten_after (machine : Machine) (calls : Nat) :
    machine.path.memory.Overwritten (machine.after calls).path.memory := by
  induction calls with
  | zero => exact .refl _
  | succ calls ih =>
    rw [after_succ]
    exact ih.trans (overwritten_next _)

/-- Each cell holds the word of the program that was loaded there, or data. Behind the program there
is nothing but data. -/
theorem cells_after {executable : Executable} {input : List UInt8} {config : Config} {calls : Nat}
    {address : Nat} {word : Word}
    (found : ((load executable input config).after calls).path.memory.word? address = some word) :
    executable.program[address]? = some word ∨ word.IsData := by
  rcases (overwritten_after _ calls).cells address word found with loaded | data
  · exact Memory.word?_load loaded
  · exact .inr data

end Machine

end TickMachine
