import TickMachine.Json.Reader
import TickMachine.Proofs.Results

/-! # What a reader accepts

What is known of a value because it has been read, whatever the text was. -/

namespace TickMachine.Json

section

variable {α : Type} {closing : Char} {budget : Nat} {text rest : List Char}

/-- The loop keeps what every round keeps. -/
theorem collect_keeps {item : α → List Char → Except Failure (α × List Char)} (keeps : α → Prop)
    (round : ∀ found text gathered rest, keeps found → item found text = .ok (gathered, rest) →
      keeps gathered) {first : Bool} {found last : α} (holds : keeps found)
    (read : collect closing item budget first found text = .ok (last, rest)) : keeps last := by
  induction budget generalizing first found text with
  | zero => cases read
  | succ budget ih =>
    rw [collect] at read
    split at read
    · cases read
    · cases read
      exact holds
    · split at read
      · cases read
      · next gathered => exact ih (round _ _ _ _ holds gathered) read

/-- What holds of every item by itself holds of the items of an array. -/
theorem items_all {item : List Char → Except Failure (α × List Char)} (fits : α → Prop)
    (each : ∀ text value rest, item text = .ok (value, rest) → fits value) {found : List α}
    (read : items budget item text = .ok (found, rest)) : ∀ value ∈ found, fits value := by
  obtain ⟨⟨gathered, behind⟩, collected, same⟩ := map_ok read
  cases same
  have kept : ∀ value ∈ gathered, fits value := by
    refine collect_keeps (fun list => ∀ value ∈ list, fits value) ?_ ?_ collected
    · intro list text longer rest holds pushed
      obtain ⟨⟨value, behind⟩, one, same⟩ := map_ok pushed
      cases same
      intro other among
      rcases List.mem_cons.1 among with rfl | among
      · exact each _ _ _ one
      · exact holds other among
    · intro value among
      exact absurd among List.not_mem_nil
  intro value among
  exact kept value (List.mem_reverse.1 among)

theorem represented_of_integer {represent : Int → Option α} {value : α}
    (read : integer represent text = .ok (value, rest)) :
    ∃ number, represent number = some value := by
  obtain ⟨⟨found, behind⟩, -, read⟩ := bind_ok read
  simp only at read
  split at read
  · next number =>
    split at read
    · next fits =>
      cases read
      exact ⟨_, fits⟩
    · cases read
  · cases read

end

end TickMachine.Json
