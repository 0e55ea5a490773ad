import TickMachine.Arch.Op
import TickMachine.Arch.Register
import TickMachine.Proofs.Text.Decimal

/-! # Lines

A text in which every line is ended is split at the line ends into its lines again, as long as none
of them has a line end inside. -/

namespace TickMachine

/-- A text without a line end. -/
def OneLine (text : String) : Prop := '\n' ∉ text.toList

instance (text : String) : Decidable (OneLine text) :=
  inferInstanceAs (Decidable ('\n' ∉ text.toList))

theorem OneLine.append {first second : String} (h : OneLine first) (h' : OneLine second) :
    OneLine (first ++ second) := by
  unfold OneLine at h h' ⊢
  rw [String.toList_append, List.mem_append, not_or]
  exact ⟨h, h'⟩

theorem oneLine_ofNat (n : Nat) : OneLine (Decimal.ofNat n) := by
  intro member
  rw [Decimal.toList_ofNat] at member
  cases Decimal.isDigit_of_mem member

theorem oneLine_ofInt32 (value : Int32) : OneLine (Decimal.ofInt32 value) := by
  unfold Decimal.ofInt32 Decimal.ofInt
  split
  · exact oneLine_ofNat _
  · exact .append (by decide) (oneLine_ofNat _)

theorem oneLine_mnemonic (op : Op) : OneLine op.mnemonic := by
  cases op <;> decide

theorem oneLine_register (register : Register) : OneLine register.text := by
  cases register <;> decide

theorem OneLine.intercalate {texts : List String} (each : ∀ text ∈ texts, OneLine text) :
    OneLine (", ".intercalate texts) := by
  induction texts with
  | nil => decide
  | cons text texts ih =>
    have first := each text List.mem_cons_self
    have others := fun text among => each text (List.mem_cons_of_mem _ among)
    cases texts with
    | nil => rwa [String.intercalate_singleton]
    | cons next texts =>
      rw [String.intercalate_cons_cons]
      exact .append (.append first (by decide)) (ih others)

/-- The lines of a text are found again between its line ends. -/
theorem splitOn_join_lines {lines : List String} (each : ∀ line ∈ lines, OneLine line) :
    (String.join (lines.map (· ++ "\n"))).toList.splitOn '\n' =
      lines.map String.toList ++ [[]] := by
  induction lines with
  | nil => rfl
  | cons line lines ih =>
    have first : '\n' ∉ line.toList := each line List.mem_cons_self
    have others := ih fun line among => each line (List.mem_cons_of_mem _ among)
    have text : (String.join ((line :: lines).map (· ++ "\n"))).toList =
        line.toList ++ '\n' :: (String.join (lines.map (· ++ "\n"))).toList := by
      simp [String.join_cons]
    rw [text, List.splitOn_append_cons_self_of_not_mem first, others]
    rfl

end TickMachine
