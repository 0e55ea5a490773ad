import TickMachine.Assembly.LabelTable

/-! # Entering labels

A label that is entered is found at its address from then on, and every other label is found where
it was. -/

namespace TickMachine.LabelTable

variable {table larger : LabelTable} {label : String} {address : Nat}

theorem insert_ok (h : table.insert label address = .ok larger) :
    table.find? label = none ∧ larger = ⟨table.entries ++ [(label, address)]⟩ := by
  unfold insert at h
  split at h
  · cases h
  · next missing =>
    cases h
    exact ⟨by simpa using missing, rfl⟩

theorem find?_insert (h : table.insert label address = .ok larger) (other : String) :
    larger.find? other = if other = label then some address else table.find? other := by
  obtain ⟨missing, rfl⟩ := insert_ok h
  unfold find? at missing ⊢
  rw [List.lookup_append]
  by_cases same : other = label
  · rw [if_pos same, same, missing, List.lookup_cons_self]
    rfl
  · rw [if_neg same, List.lookup_cons, beq_false_of_ne same]
    simp

end TickMachine.LabelTable
