import TickMachine.Proofs.Json.Truncation
import TickMachine.Proofs.Program.DescriptorRoundTrip

/-! # Truncated descriptors

The beginning of the descriptor of an executable is no descriptor, wherever it is cut: the reader
finds that the text ends too early, and never an error of another kind or a shorter program. -/

namespace TickMachine

open Json

namespace Descriptor

variable {size : Nat}

/-! ## Words -/

/-- The beginning of an entry is not even a JSON value. -/
theorem entry_cut (word : Word) (depth : Nat) :
    RunsOut size (entry size) (entryText depth word) := by
  intro front missing cut begun more short
  obtain stopped | ⟨⟨n, number⟩, -⟩ :=
    value_pretty_cut (word.fits_toEntry 123) depth cut begun more short
  · left
    have read : value .kept size entryLevels front = .error .truncated := stopped
    rw [entry, read]
    rfl
  · cases number

theorem program_cut (words : List Word) (depth : Nat) :
    RunsOut size (program size) (itemText depth (.array (words.map Word.toEntry))) := by
  intro front missing cut begun more short
  rw [array_toEntry] at cut
  obtain ⟨behind, rfl, left⟩ := cut_cons cut begun
  have opens : ∀ word ∈ words, Opens (entryText (depth + 1) word) :=
    fun word _ => opens_pretty (word.fits_toEntry 0) (depth + 1)
  have stopped := collect_laidOut_cut Word.persisted (.inl rfl) depth opens
    (fun word _ short rest ends => entry_entryText word (depth + 1) short ends)
    (fun word _ => entry_cut word (depth + 1)) more left (Nat.le_of_succ_le short) size
  left
  rw [program, skipBlank_of_visible behind rfl]
  simp only [items, stopped]
  rfl

/-- The beginning of an address is an address. -/
theorem integer_address_cut {n : Nat} (small : n < UInt64.size) (depth : Nat) :
    RunsOut size (integer address?) (itemText depth (.integer n)) := by
  intro front missing cut begun more short
  rw [itemText, pretty_integer, Decimal.toList_ofInt_ofNat] at cut
  obtain ⟨less, le, read⟩ := scalar_digits_cut .kept small cut begun
  obtain ⟨c, behind, rfl⟩ := List.exists_cons_of_ne_nil begun
  have digit : c.isDigit = true := by
    have among : c ∈ Decimal.digits n := by
      rw [cut]
      exact List.mem_cons_self
    exact Decimal.isDigit_of_mem among
  have visible := isBlank_of_numeric (.inr digit)
  rw [← skipBlank_of_visible behind visible] at read
  exact .inr ⟨less, integer_of_scalar read (address?_ofNat (Nat.lt_of_le_of_lt le small))⟩

/-! ## Members -/

theorem field_start_cut {n : Nat} (small : n < UInt64.size) (depth : Nat) :
    RunsOut size (field size {}) (memberText depth ("start", .integer n)) :=
  runsOut_keyed (keyed_start size rfl) rfl
    (runsOut_space (fun _ => rfl) rfl (integer_address_cut small depth))

theorem field_program_cut (n : Nat) (words : List Word) (depth : Nat) :
    RunsOut size (field size { start := some n })
      (memberText depth ("program", .array (words.map Word.toEntry))) :=
  runsOut_keyed (keyed_program size rfl) rfl
    (runsOut_space (fun _ => rfl) rfl (program_cut words depth))

end Descriptor

namespace Executable

variable {executable : Executable}

theorem sequenced_members (addressable : executable.start < UInt64.size) (size : Nat) :
    Sequenced size (Descriptor.field size) {} (executable.descriptorMembers.map (memberText 1)) := by
  let program : String × Value := ("program", .array (executable.program.map Word.toEntry))
  have words : (memberText 1 program).length ≤ size → ∀ rest, Text.Ends continuesNumber rest →
      Descriptor.field size { start := some executable.start } (memberText 1 program ++ rest) =
        .ok (⟨executable.start, executable.program.map Word.persisted⟩, rest) := by
    intro short rest _
    have inner : (itemText 1 program.2).length ≤ (memberText 1 program).length :=
      itemText_le_memberText 1 program
    exact Descriptor.field_program _ executable.program 1 (Nat.le_trans inner short) rest
  exact .cons (fun _ rest ends => Descriptor.field_start addressable size 1 ends)
    (Descriptor.field_start_cut addressable 1)
    (.cons words (Descriptor.field_program_cut executable.start executable.program 1) (.nil _))

/-- The beginning of a descriptor is never accepted, and what is wrong with it is that it ends too
early. It may be empty, and it may be cut anywhere: inside a number or a string, behind a complete
word, or in front of the last brace. The start is an address of 64 bits. -/
theorem truncated_descriptors_refused (executable : Executable)
    (addressable : executable.start < UInt64.size) {front missing : String}
    (cut : executable.toJson = front ++ missing) (more : missing ≠ "") :
    ofJson front = .error .truncated := by
  have text := executable.toJson_toList
  rw [cut, String.toList_append] at text
  have rest : missing.toList ≠ [] := by
    intro nothing
    exact more (String.toList_eq_nil_iff.1 nothing)
  obtain ⟨nothing, -⟩ | ⟨behind, begun, left⟩ := List.append_eq_cons_iff.1 text
  · rw [ofJson, nothing]
    rfl
  · have sequenced := executable.sequenced_members addressable front.toList.length
    rw [← laidOut_text 0 (executable.descriptorMembers.map (memberText 1))] at sequenced
    have short : behind.length ≤ front.toList.length := by
      rw [begun, List.length_cons]
      omega
    have stopped := collect_listed_cut rest (.inr rfl) sequenced executable.plain_descriptorMembers
      left short front.toList.length
    have object : Descriptor.ofObject front.toList.length behind = .error .truncated := by
      rw [Descriptor.ofObject, stopped]
      rfl
    rw [begun] at object
    rw [ofJson, begun, Descriptor.read, skipBlank_of_visible _ rfl]
    simp only [object, bind, Except.bind]

/-- A descriptor that is cut inside the number of its start, where what is left is a number, and
one that lacks its last brace only. -/
theorem truncated_descriptors_refused_start :
    ofJson "\x7b\n  \"start\": 1" = .error .truncated ∧
    ofJson "\x7b\n  \"start\": 12,\n  \"program\": []\n" = .error .truncated := by
  have inside : toJson ⟨12, []⟩ =
      "\x7b\n  \"start\": 1" ++ "2,\n  \"program\": []\n\x7d" := by
    decide +kernel
  have last : toJson ⟨12, []⟩ =
      "\x7b\n  \"start\": 12,\n  \"program\": []\n" ++ "\x7d" := by
    decide +kernel
  exact ⟨truncated_descriptors_refused _ (by decide) inside (by decide),
    truncated_descriptors_refused _ (by decide) last (by decide)⟩

end Executable

end TickMachine
