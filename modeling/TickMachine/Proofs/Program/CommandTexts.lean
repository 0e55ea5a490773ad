import TickMachine.Program.Disassembly
import TickMachine.Proofs.Arch.Catalog
import TickMachine.Proofs.Results
import TickMachine.Proofs.Text.Lines

/-! # The texts of commands

A command that has a text is one of a known operation with as many arguments as it takes, each of
which has a text of its own. The text takes one line. -/

namespace TickMachine.Disassembly

/-- What the text of a command is made of. -/
theorem command_ok {opcode : Int32} {args : List Int32} {text : String}
    (written : command opcode args = .ok text) :
    ∃ op texts, Op.code op = opcode ∧ args.length = op.arity ∧
      operands op.kinds args = .ok texts ∧
      (texts = [] ∧ text = op.mnemonic ∨
        texts ≠ [] ∧ text = op.mnemonic ++ " " ++ ", ".intercalate texts) := by
  unfold command at written
  cases coded : Op.ofCode? opcode with
  | none => simp [coded] at written
  | some op =>
    simp only [coded] at written
    split at written
    · cases written
    · next length =>
      obtain ⟨texts, found, written⟩ := bind_ok written
      refine ⟨op, texts, Op.ofCode?_eq_some_iff.1 coded, Decidable.not_not.1 length, found, ?_⟩
      cases texts with
      | nil => exact .inl ⟨rfl, (Except.ok.inj written).symm⟩
      | cons first others => exact .inr ⟨List.cons_ne_nil _ _, (Except.ok.inj written).symm⟩

/-! ## Lines -/

theorem oneLine_operand {kind : OperandKind} {value : Int32} {text : String}
    (written : operand kind value = .ok text) : OneLine text := by
  cases kind with
  | register =>
    unfold operand register at written
    cases named : Register.ofCode? value with
    | none => simp [named] at written
    | some register =>
      simp only [named, Except.ok.injEq] at written
      rw [← written]
      exact oneLine_register register
  | immediate =>
    cases written
    exact oneLine_ofInt32 value

theorem oneLine_operands {kinds : List OperandKind} {values : List Int32} {texts : List String}
    (written : operands kinds values = .ok texts) : ∀ text ∈ texts, OneLine text := by
  induction kinds generalizing values texts with
  | nil =>
    cases written
    exact List.forall_mem_nil _
  | cons kind kinds ih =>
    cases values with
    | nil =>
      cases written
      exact List.forall_mem_nil _
    | cons value values =>
      rw [operands] at written
      obtain ⟨text, first, written⟩ := bind_ok written
      obtain ⟨others, rest, written⟩ := bind_ok written
      cases written
      exact List.forall_mem_cons.2 ⟨oneLine_operand first, ih rest⟩

theorem oneLine_command {opcode : Int32} {args : List Int32} {text : String}
    (written : command opcode args = .ok text) : OneLine text := by
  obtain ⟨op, texts, -, -, found, ⟨-, rfl⟩ | ⟨-, rfl⟩⟩ := command_ok written
  · exact oneLine_mnemonic op
  · exact .append (.append (oneLine_mnemonic op) (by decide))
      (.intercalate (oneLine_operands found))

end TickMachine.Disassembly
