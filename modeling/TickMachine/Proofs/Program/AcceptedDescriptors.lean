import TickMachine.Proofs.Json.Accepted
import TickMachine.Proofs.Program.DescriptorRoundTrip

/-! # Descriptors that are accepted

However its text is laid out, a descriptor that is accepted gives an executable whose start is an
address of 64 bits and whose words are in their persisted form. Such an executable comes back
unchanged from its own descriptor: reading and writing settle after the first time. -/

namespace TickMachine

open Json

/-- An executable as descriptors give it. -/
structure Executable.Settled (executable : Executable) : Prop where
  addressable : executable.start < UInt64.size
  words : ∀ word ∈ executable.program, word.persisted = word

/-- A word that is given by its numbers is in its persisted form. -/
theorem Word.persisted_of_ofRaw? {raw : List Int32} {word : Word} (read : ofRaw? raw = some word) :
    word.persisted = word := by
  match raw with
  | [] => cases read
  | [value] =>
    cases read
    rfl
  | opcode :: first :: others =>
    cases read
    rfl

namespace Descriptor

variable {budget : Nat} {text rest : List Char} {word : Word} {words : List Word}
  {executable : Executable}

/-! ## Parts -/

theorem persisted_of_word? {value : Value} (read : word? value = some word) :
    word.persisted = word := by
  cases value with
  | array items =>
    obtain ⟨raw, -, read⟩ := Option.bind_eq_some_iff.1 read
    exact Word.persisted_of_ofRaw? read
  | null => cases read
  | bool value => cases read
  | number value => cases read
  | string value => cases read
  | object members => cases read

theorem persisted_of_ofEntry? {value : Value} (read : ofEntry? value = some word) :
    word.persisted = word := by
  unfold ofEntry? at read
  split at read
  · split at read
    · split at read
      · exact persisted_of_word? read
      · cases read
    · cases read
  · exact persisted_of_word? read

theorem persisted_of_entry (read : entry budget text = .ok (word, rest)) :
    word.persisted = word := by
  obtain ⟨⟨found, behind⟩, -, read⟩ := bind_ok read
  simp only at read
  split at read
  · next entry =>
    cases read
    exact persisted_of_ofEntry? entry
  · cases read

theorem persisted_of_program (read : program budget text = .ok (words, rest)) :
    ∀ word ∈ words, word.persisted = word := by
  unfold program at read
  split at read
  · refine items_all (fun word => word.persisted = word) ?_ read
    intro text word rest one
    exact persisted_of_entry one
  · cases read

theorem lt_of_address? {value : Int} {start : Nat} (read : address? value = some start) :
    start < UInt64.size := by
  unfold address? at read
  split at read
  · cases read
    omega
  · cases read

theorem lt_of_integer {start : Nat} (read : integer address? text = .ok (start, rest)) :
    start < UInt64.size := by
  obtain ⟨value, found⟩ := represented_of_integer read
  exact lt_of_address? found

/-! ## Members -/

/-- The members that have been read are those of a settled executable. -/
structure Fields.Settled (fields : Fields) : Prop where
  addressable : ∀ start, fields.start = some start → start < UInt64.size
  words : ∀ words, fields.program = some words → ∀ word ∈ words, word.persisted = word

theorem settled_nothing : Fields.Settled {} := by
  constructor
  · intro start found
    cases found
  · intro words found
    cases found

theorem settled_of_field {fields found : Fields} (settled : fields.Settled)
    (read : field budget fields text = .ok (found, rest)) : found.Settled := by
  obtain ⟨⟨name, behind⟩, -, read⟩ := bind_ok read
  simp only at read
  split at read
  · split at read
    · cases read
    · obtain ⟨behind, -, read⟩ := bind_ok read
      obtain ⟨⟨start, behind⟩, one, read⟩ := bind_ok read
      cases read
      refine ⟨?_, settled.words⟩
      intro other same
      cases same
      exact lt_of_integer one
  · split at read
    · split at read
      · cases read
      · obtain ⟨behind, -, read⟩ := bind_ok read
        obtain ⟨⟨words, behind⟩, one, read⟩ := bind_ok read
        cases read
        refine ⟨settled.addressable, ?_⟩
        intro other same
        cases same
        exact persisted_of_program one
    · obtain ⟨behind, -, read⟩ := bind_ok read
      obtain ⟨behind, -, read⟩ := bind_ok read
      cases read
      exact settled

/-! ## Documents -/

theorem settled_of_ofObject (read : ofObject budget text = .ok (executable, rest)) :
    executable.Settled := by
  obtain ⟨⟨fields, behind⟩, collected, read⟩ := bind_ok read
  have settled : fields.Settled := by
    refine collect_keeps Fields.Settled ?_ settled_nothing collected
    intro found text gathered rest holds one
    exact settled_of_field holds one
  simp only at read
  split at read
  · cases read
    exact ⟨settled.addressable _ rfl, settled.words _ rfl⟩
  · cases read

/-- An element of an array is read by its own reader. -/
theorem item_of_element {α : Type} {first : Bool} {value : α}
    {item : List Char → Except Failure (α × List Char)}
    (read : element first item text = .ok (value, rest)) :
    ∃ text, item text = .ok (value, rest) := by
  obtain ⟨following, -, read⟩ := bind_ok read
  cases following with
  | closed behind => cases read
  | item text => exact ⟨text, read⟩

theorem settled_of_ofArray (read : ofArray budget text = .ok (executable, rest)) :
    executable.Settled := by
  obtain ⟨⟨start, behind⟩, one, read⟩ := bind_ok read
  obtain ⟨⟨words, behind⟩, other, read⟩ := bind_ok read
  obtain ⟨text, one⟩ := item_of_element one
  obtain ⟨text, other⟩ := item_of_element other
  simp only at read
  split at read
  · cases read
  · cases read
    exact ⟨lt_of_integer one, persisted_of_program other⟩
  · cases read

theorem settled_of_read (accepted : read text = .ok executable) : executable.Settled := by
  unfold read at accepted
  simp only at accepted
  split at accepted
  · obtain ⟨⟨found, behind⟩, document, accepted⟩ := bind_ok accepted
    obtain ⟨done, -, accepted⟩ := bind_ok accepted
    cases accepted
    exact settled_of_ofObject document
  · obtain ⟨⟨found, behind⟩, document, accepted⟩ := bind_ok accepted
    obtain ⟨done, -, accepted⟩ := bind_ok accepted
    cases accepted
    exact settled_of_ofArray document
  · cases accepted

end Descriptor

/-! ## Reading and writing settle -/

namespace Executable

variable {executable : Executable}

theorem Settled.persisted_eq (settled : executable.Settled) : executable.persisted = executable := by
  have words : executable.program.map Word.persisted = executable.program.map id :=
    List.map_congr_left settled.words
  rw [persisted, words, List.map_id]

theorem Settled.ofJson_toJson (settled : executable.Settled) :
    ofJson executable.toJson = .ok executable := by
  rw [Executable.ofJson_toJson executable settled.addressable, settled.persisted_eq]

/-- The settled executables are those that some text gives. -/
theorem settled_iff : executable.Settled ↔ ∃ text, ofJson text = .ok executable := by
  constructor
  · intro settled
    exact ⟨executable.toJson, settled.ofJson_toJson⟩
  · rintro ⟨text, accepted⟩
    exact Descriptor.settled_of_read accepted

/-- What comes back of an executable: the same start, and as many words in the same order, where
commands without arguments have become data and every other word is as it was. -/
structure ComesBackAs (executable kept : Executable) : Prop where
  start : kept.start = executable.start
  length : kept.program.length = executable.program.length
  bare (place : Nat) (opcode : Int32) : executable.program[place]? = some (.command opcode []) →
    kept.program[place]? = some (.data opcode)
  other (place : Nat) (word : Word) : executable.program[place]? = some word →
    (∀ opcode, word ≠ .command opcode []) → kept.program[place]? = some word

theorem comesBackAs_persisted (executable : Executable) :
    executable.ComesBackAs executable.persisted where
  start := rfl
  length := List.length_map _
  bare := by
    intro place opcode found
    simp [persisted, found, Word.persisted]
  other := by
    intro place word found full
    have same : word.persisted = word := by
      unfold Word.persisted
      split
      · next opcode => exact absurd rfl (full opcode)
      · rfl
    simp [persisted, found, same]

/-- Descriptors are read back, over the whole format: an executable comes back from its descriptor
with its commands without arguments replaced by data, and nothing else changed. What any accepted
text gives comes back exactly. The start is an address of 64 bits. -/
theorem descriptors_read_back :
    (∀ executable : Executable, executable.start < UInt64.size →
      ∃ kept, ofJson executable.toJson = .ok kept ∧ executable.ComesBackAs kept) ∧
    ∀ (text : String) (executable : Executable), ofJson text = .ok executable →
      ofJson executable.toJson = .ok executable := by
  constructor
  · intro executable addressable
    exact ⟨executable.persisted, executable.ofJson_toJson addressable,
      executable.comesBackAs_persisted⟩
  · intro text executable accepted
    exact (settled_iff.2 ⟨text, accepted⟩).ofJson_toJson

/-- HLT comes back as data from the last address there is, with the least machine value behind it.
A descriptor written as an array of bare lists gives an executable that comes back exactly. -/
theorem descriptors_read_back_bounds :
    (∃ kept, ofJson (toJson ⟨18446744073709551615, [.command 22 [], .data (-2147483648)]⟩) =
        .ok kept ∧
      ComesBackAs ⟨18446744073709551615, [.command 22 [], .data (-2147483648)]⟩ kept) ∧
    ofJson " [7, [[22], [2, 0, 1, -5]]]" = .ok ⟨7, [.data 22, .command 2 [0, 1, -5]]⟩ ∧
    ofJson (toJson ⟨7, [.data 22, .command 2 [0, 1, -5]]⟩) =
      .ok ⟨7, [.data 22, .command 2 [0, 1, -5]]⟩ := by
  have accepted : ofJson " [7, [[22], [2, 0, 1, -5]]]" =
      .ok ⟨7, [.data 22, .command 2 [0, 1, -5]]⟩ := by
    rfl
  exact ⟨descriptors_read_back.1 _ (by decide), accepted, descriptors_read_back.2 _ _ accepted⟩

end Executable

end TickMachine
