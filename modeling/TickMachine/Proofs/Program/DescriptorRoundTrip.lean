import TickMachine.Program.Descriptor
import TickMachine.Proofs.Json.Values
import TickMachine.Proofs.Program.PersistedForm

/-! # Descriptors read back

The descriptor of an executable is read back as the executable in its persisted form. The start has
to fit in the 64 bits of an address; every machine value fits in the numbers of JSON. -/

namespace TickMachine

open Json

/-! ## Words -/

theorem fits_machineValue (levels : Nat) (value : Int32) :
    Fits levels (.integer value.toInt) := by
  have below := value.toInt_lt
  have above := value.le_toInt
  refine .integer (Nat.lt_of_le_of_lt (m := 2147483648) ?_ (by decide))
  omega

theorem Word.fits_toEntry (levels : Nat) (word : Word) : Fits (levels + 2) word.toEntry := by
  have raw : Fits (levels + 1) word.toJson := by
    apply Fits.array
    intro item member
    obtain ⟨value, -, rfl⟩ := List.mem_map.1 member
    exact fits_machineValue levels value
  apply Fits.object
  intro member among
  rcases List.mem_cons.1 among with rfl | formatted
  · exact raw
  · cases h : word.disassemble with
    | ok text =>
      rw [h] at formatted
      obtain rfl := List.mem_singleton.1 formatted
      exact .string text
    | error refusal =>
      rw [h] at formatted
      exact absurd formatted List.not_mem_nil

namespace Descriptor

theorem mapM_machineValue? (raw : List Int32) :
    (raw.map fun value => Value.integer value.toInt).mapM machineValue? = some raw := by
  have back : ∀ value : Int32, machineValue? (.integer value.toInt) = some value :=
    Decimal.toInt32?_toInt
  exact mapM_map_back back raw

theorem word?_toJson (word : Word) : word? word.toJson = some word.persisted := by
  rw [Word.toJson, word?, mapM_machineValue?, Option.bind_some, Word.ofRaw?_raw]

theorem ofEntry?_toEntry (word : Word) : ofEntry? word.toEntry = some word.persisted := by
  rw [Word.toEntry]
  cases word.disassemble <;> exact word?_toJson word

/-- The text of the entry of a word. -/
def entryText (depth : Nat) (word : Word) : List Char := itemText depth word.toEntry

/-- An entry is read as its word in the persisted form. -/
theorem entry_entryText (word : Word) (depth : Nat) {budget : Nat}
    (enough : (entryText depth word).length ≤ budget) {rest : List Char}
    (ends : Text.Ends continuesNumber rest) :
    entry budget (entryText depth word ++ rest) = .ok (word.persisted, rest) := by
  have read : value .kept budget entryLevels (entryText depth word ++ rest) =
      .ok (word.toEntry, rest) :=
    value_pretty .kept (word.fits_toEntry 123) depth enough ends
  rw [entry, read]
  simp only [bind, Except.bind, ofEntry?_toEntry]
  rfl

/-! ## Members -/

theorem address?_ofNat {n : Nat} (small : n < UInt64.size) : address? n = some n := by
  rw [address?, if_pos (by omega), Int.toNat_natCast]

theorem integer_address {n : Nat} (small : n < UInt64.size) {rest : List Char}
    (ends : Text.Ends continuesNumber rest) :
    integer address? (' ' :: ((Decimal.ofInt n).toList ++ rest)) = .ok (n, rest) := by
  have fits : (n : Int).natAbs < UInt64.size := by rwa [Int.natAbs_natCast]
  have read := integer_of_represent fits (address?_ofNat small) blank_space ends
  rwa [List.singleton_append] at read

theorem array_toEntry (words : List Word) (depth : Nat) :
    itemText depth (.array (words.map Word.toEntry)) =
      '[' :: (listed (laidOut depth (words.map (entryText (depth + 1)))) ++ [']']) := by
  rw [itemText, pretty_array, List.map_map]
  rfl

/-- The entries of a program are read as its words in their persisted form. -/
theorem program_toEntry (words : List Word) (depth : Nat) {budget : Nat}
    (enough : (itemText depth (.array (words.map Word.toEntry))).length ≤ budget)
    (rest : List Char) :
    program budget (' ' :: (itemText depth (.array (words.map Word.toEntry)) ++ rest)) =
      .ok (words.map Word.persisted, rest) := by
  rw [array_toEntry] at enough ⊢
  simp only [List.length_cons, List.length_append, List.length_nil] at enough
  have short : ∀ word ∈ words, (entryText (depth + 1) word).length ≤ budget := by
    intro word among
    have := length_spell_le (entryText (depth + 1)) depth among
    omega
  have read := collect_laidOut (entry budget) (entryText (depth + 1)) Word.persisted (.inl rfl)
    depth (fun word _ => opens_pretty (word.fits_toEntry 0) (depth + 1))
    (fun word among rest ends => entry_entryText word (depth + 1) (short word among) ends)
    enough rest
  have skipped : ∀ text, skipBlank (' ' :: '[' :: text) = '[' :: text := fun text =>
    skipBlank_append blank_space (Text.ends_cons rfl)
  rw [program, List.cons_append, skipped, List.append_assoc]
  exact read

/-! ## Descriptors -/

/-- The start of a program is read where it has not been read before. -/
theorem keyed_start (budget : Nat) {fields : Fields} (first : fields.start = none) :
    Keyed .kept (field budget fields) "start" (integer address?)
      fun start => { fields with start := some start } where
  failed := by
    intro text failure refused
    rw [field, refused]
    rfl
  named := by
    intro text behind found
    simp only [field, found, first, bind, Except.bind]
    rfl

/-- The words of a program are read where they have not been read before. -/
theorem keyed_program (budget : Nat) {fields : Fields} (first : fields.program = none) :
    Keyed .kept (field budget fields) "program" (program budget)
      fun words => { fields with program := some words } where
  failed := by
    intro text failure refused
    rw [field, refused]
    rfl
  named := by
    intro text behind found
    simp only [field, found, first, bind, Except.bind]
    rfl

theorem field_start {n : Nat} (small : n < UInt64.size) (budget depth : Nat) {rest : List Char}
    (ends : Text.Ends continuesNumber rest) :
    field budget {} (memberText depth ("start", .integer n) ++ rest) =
      .ok ({ start := some n }, rest) := by
  rw [memberText, List.append_assoc, (keyed_start budget rfl).named (key_quote .kept "start" _)]
  simp only [List.cons_append, colon_colon, Except.bind, itemText, pretty_integer,
    integer_address small ends]
  rfl

theorem field_program (n : Nat) (words : List Word) (depth : Nat) {budget : Nat}
    (enough : (itemText depth (.array (words.map Word.toEntry))).length ≤ budget)
    (rest : List Char) :
    field budget { start := some n }
        (memberText depth ("program", .array (words.map Word.toEntry)) ++ rest) =
      .ok ({ start := some n, program := some (words.map Word.persisted) }, rest) := by
  rw [memberText, List.append_assoc,
    (keyed_program budget rfl).named (key_quote .kept "program" _)]
  simp only [List.cons_append, colon_colon, Except.bind, program_toEntry words depth enough]
  rfl

end Descriptor

namespace Executable

/-- The members of the descriptor of an executable. -/
def descriptorMembers (executable : Executable) : List (String × Value) :=
  [("start", .integer executable.start), ("program", .array (executable.program.map Word.toEntry))]

theorem toJson_toList (executable : Executable) :
    executable.toJson.toList = '\x7b' ::
      (listed (laidOut 0 (executable.descriptorMembers.map (memberText 1))) ++ ['\x7d']) :=
  pretty_object 0 executable.descriptorMembers

theorem plain_descriptorMembers (executable : Executable) :
    ∀ part ∈ laidOut 0 (executable.descriptorMembers.map (memberText 1)), part.Plain '\x7d' :=
  plain_laidOut (.inr rfl) 0 fun member _ => opens_quote member.1 _

/-- An executable is read back from its descriptor in its persisted form. -/
theorem ofJson_toJson (executable : Executable)
    (addressable : executable.start < UInt64.size) :
    ofJson executable.toJson = .ok executable.persisted := by
  let program : Value := .array (executable.program.map Word.toEntry)
  let parts := laidOut 0 (executable.descriptorMembers.map (memberText 1))
  have text : executable.toJson.toList = '\x7b' :: (listed parts ++ ['\x7d']) :=
    executable.toJson_toList
  have short : (itemText 1 program).length ≤ executable.toJson.toList.length := by
    have among : ("program", program) ∈ executable.descriptorMembers :=
      List.mem_cons_of_mem _ List.mem_cons_self
    have inner : (itemText 1 program).length ≤ (memberText 1 ("program", program)).length :=
      itemText_le_memberText 1 ("program", program)
    have outer : (memberText 1 ("program", program)).length ≤ (listed parts).length :=
      length_spell_le (memberText 1) 0 among
    rw [text]
    simp only [List.length_append, List.length_cons]
    omega
  have gathered : Gathered (Descriptor.field executable.toJson.toList.length) {}
      (parts.map Part.text)
      ⟨some executable.start, some (executable.program.map Word.persisted)⟩ := by
    rw [laidOut_text]
    refine .cons (fun rest ends => Descriptor.field_start addressable _ 1 ends) (.cons ?_ (.nil _))
    exact fun rest _ => Descriptor.field_program _ executable.program 1 short rest
  have enough : parts.length < executable.toJson.toList.length := by
    have := length_listed parts
    rw [text]
    simp only [List.length_append, List.length_cons]
    omega
  have read := collect_listed (.inr rfl) gathered executable.plain_descriptorMembers enough []
  rw [text] at read
  have object : Descriptor.ofObject executable.toJson.toList.length (listed parts ++ ['\x7d']) =
      .ok (executable.persisted, []) := by
    rw [text, Descriptor.ofObject, read]
    rfl
  rw [text] at object
  rw [ofJson, text, Descriptor.read, skipBlank_of_visible _ rfl]
  simp only [object, bind, Except.bind]
  rfl

end Executable

end TickMachine
