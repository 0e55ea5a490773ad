import TickMachine.Program.Executable

/-! # Persisted forms

A word is persisted as the list of its numbers, and a list of one number comes back as data. The
form in which a word comes back differs from the word for a command without arguments only, and
the machine cannot tell the two apart. -/

namespace TickMachine

namespace Word

/-- The form in which a word comes back after it has been persisted. -/
def persisted : Word → Word
  | .command opcode [] => .data opcode
  | word => word

theorem ofRaw?_raw (word : Word) : ofRaw? word.raw = some word.persisted := by
  match word with
  | .data _ => rfl
  | .command _ [] => rfl
  | .command _ (_ :: _) => rfl

@[simp] theorem persisted_data (value : Int32) : persisted (.data value) = .data value := rfl

@[simp] theorem persisted_zero : persisted zero = zero := rfl

@[simp] theorem value_persisted (word : Word) : word.persisted.value = word.value := by
  unfold persisted
  split <;> rfl

@[simp] theorem opcode_persisted (word : Word) : word.persisted.opcode = word.opcode := by
  unfold persisted
  split <;> rfl

@[simp] theorem args_persisted (word : Word) : word.persisted.args = word.args := by
  unfold persisted
  split <;> rfl

end Word

/-- The form in which an executable comes back after it has been persisted. -/
def Executable.persisted (executable : Executable) : Executable :=
  { executable with program := executable.program.map Word.persisted }

end TickMachine
