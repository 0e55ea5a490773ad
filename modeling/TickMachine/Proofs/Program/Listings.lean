import TickMachine.Program.Listing
import TickMachine.Proofs.Json.Values
import TickMachine.Proofs.Program.Annotations
import TickMachine.Proofs.Program.CommandTexts
import TickMachine.Proofs.Text.Separated

/-! # Listings read back

The lines of a listing have three kinds of words, which their first characters tell apart: data
starts with a digit or a sign, a command that has a text with a letter, and numbers in brackets
stand for a command that has none. Each kind can be read again, so that the listing of an executable
gives the executable. -/

namespace TickMachine

/-- The text of a command starts with a letter. -/
theorem Disassembly.command_start {opcode : Int32} {args : List Int32} {text : String}
    (written : command opcode args = .ok text) :
    ∃ c rest, text.toList = c :: rest ∧ Charset.isStart c = true := by
  obtain ⟨op, texts, -, -, -, parts⟩ := command_ok written
  obtain ⟨c, rest, mnemonic, start⟩ := (identifier_mnemonic op).start
  rcases parts with ⟨-, rfl⟩ | ⟨-, rfl⟩
  · exact ⟨c, rest, mnemonic, start⟩
  · rw [String.toList_append, String.toList_append, mnemonic]
    exact ⟨c, _, rfl, start⟩

namespace Listing

/-! ## Words -/

/-- The command with these numbers. -/
def commandOf? : List Int32 → Option Word
  | [] => none
  | opcode :: args => some (.command opcode args)

/-- The only word of the program that a text is assembled into behind the start label. -/
def assembled? (text : String) : Option Word :=
  match assemble ("_start: " ++ text) with
  | .ok ⟨_, [word]⟩ => some word
  | _ => none

/-- The word of a text in a listing. Its first character tells whether it is a list of numbers in
brackets, data, or the text of a command. -/
def readWord? : List Char → Option Word
  | [] => none
  | c :: rest =>
    if c = '[' then (Text.listOf? Decimal.readInt32? (String.ofList rest.dropLast)).bind commandOf?
    else if c = '-' ∨ c.isDigit then (Decimal.readInt32? (c :: rest)).map .data
    else assembled? (String.ofList (c :: rest))

theorem readWord?_data (value : Int32) :
    readWord? (Decimal.ofInt32 value).toList = some (.data value) := by
  obtain ⟨c, rest, text, numeric⟩ := Json.integer_start value.toInt
  have other : c ≠ '[' := by
    rintro rfl
    rcases numeric with sign | digit
    · cases sign
    · cases digit
  have read := Decimal.readInt32?_ofInt32 value
  rw [Decimal.ofInt32, text] at read ⊢
  rw [readWord?, if_neg other, if_pos numeric, read]
  rfl

theorem readWord?_command {opcode : Int32} {args : List Int32} {text : String}
    (written : Disassembly.command opcode args = .ok text) :
    readWord? text.toList = some (.command opcode args) := by
  obtain ⟨c, rest, parts, start⟩ := Disassembly.command_start written
  have bracket : c ≠ '[' := Lexer.ne_of_isStart start rfl
  have numeric : ¬(c = '-' ∨ c.isDigit = true) := by
    rintro (sign | digit)
    · exact Lexer.ne_of_isStart start rfl sign
    · rw [Lexer.isDigit_of_isStart start] at digit
      cases digit
  have whole : String.ofList (c :: rest) = text := by rw [← parts, String.ofList_toList]
  rw [parts, readWord?, if_neg bracket, if_neg numeric, whole, assembled?,
    assemble_command written]

theorem readWord?_raw (opcode : Int32) (args : List Int32) :
    readWord? ("[" ++ ", ".intercalate ((opcode :: args).map Decimal.ofInt32) ++ "]").toList =
      some (.command opcode args) := by
  have text : ("[" ++ ", ".intercalate ((opcode :: args).map Decimal.ofInt32) ++ "]").toList =
      '[' :: ((", ".intercalate ((opcode :: args).map Decimal.ofInt32)).toList ++ [']']) := by
    simp
  have read := Text.listOf?_intercalate isItem_ofInt32 Decimal.readInt32?_ofInt32 (opcode :: args)
  rw [text, readWord?, if_pos rfl, List.dropLast_concat, String.ofList_toList, read]
  rfl

/-- A word in a listing can be read again. -/
theorem readWord?_word (word : Word) : readWord? (Listing.word word).toList = some word := by
  cases word with
  | data value => exact readWord?_data value
  | command opcode args =>
    unfold Listing.word
    split
    · next text written => exact readWord?_command written
    · exact readWord?_raw opcode args

theorem oneLine_word (word : Word) : OneLine (Listing.word word) := by
  have numbers : OneLine (", ".intercalate (word.raw.map Decimal.ofInt32)) :=
    .intercalate (List.forall_mem_map.2 fun value _ => oneLine_ofInt32 value)
  unfold Listing.word
  split
  · next text written =>
    cases word with
    | data value =>
      cases written
      exact oneLine_ofInt32 value
    | command opcode args => exact Disassembly.oneLine_command written
  · exact .append (.append (by decide) numbers) (by decide)

/-! ## Addresses -/

theorem toList_address (n : Nat) :
    ∃ zeros, (address n).toList = List.replicate zeros '0' ++ Decimal.digits n := by
  refine ⟨3 - (Decimal.ofNat n).length, ?_⟩
  rw [address, Text.padLeft, String.toList_append, String.toList_ofList, Decimal.toList_ofNat]

theorem isDigit_of_mem_address {n : Nat} {c : Char} (h : c ∈ (address n).toList) :
    c.isDigit = true := by
  obtain ⟨zeros, text⟩ := toList_address n
  rw [text, List.mem_append] at h
  rcases h with zero | digit
  · rw [List.eq_of_mem_replicate zero]
    rfl
  · exact Decimal.isDigit_of_mem digit

theorem ofDigitChars_zeros (zeros : Nat) (text : List Char) :
    Nat.ofDigitChars 10 (List.replicate zeros '0' ++ text) 0 = Nat.ofDigitChars 10 text 0 := by
  induction zeros with
  | zero => rfl
  | succ zeros ih =>
    rw [List.replicate_succ, List.cons_append, Nat.ofDigitChars_cons]
    exact ih

/-- Zeros in front do not change an address. -/
theorem readNat?_address (n : Nat) : Decimal.readNat? (address n).toList = some n := by
  have decimal : (address n).toList.all Char.isDigit = true :=
    List.all_eq_true.2 fun _ => isDigit_of_mem_address
  obtain ⟨zeros, text⟩ := toList_address n
  have filled : (address n).toList ≠ [] := by
    rw [text]
    exact List.append_ne_nil_of_right_ne_nil _ (Decimal.digits_ne_nil n)
  rw [Decimal.readNat?, if_pos ⟨filled, decimal⟩, text, ofDigitChars_zeros,
    Decimal.ofDigitChars_digits]

theorem oneLine_address (n : Nat) : OneLine (address n) := by
  intro member
  cases isDigit_of_mem_address member

/-! ## Lines -/

/-- The address and the word in a line. -/
def readLine? (line : List Char) : Option (Nat × Word) :=
  match line.dropWhile Char.isDigit with
  | ' ' :: text => do
    let address ← Decimal.readNat? (line.takeWhile Char.isDigit)
    let word ← readWord? text
    return (address, word)
  | _ => none

theorem readLine?_line (n : Nat) (word : Word) :
    readLine? (line n word).toList = some (n, word) := by
  have text : (line n word).toList = (address n).toList ++ ' ' :: (Listing.word word).toList := by
    simp [line]
  have decimal : ∀ c ∈ (address n).toList, c.isDigit = true := fun _ => isDigit_of_mem_address
  have ends : Text.Ends Char.isDigit (' ' :: (Listing.word word).toList) := Text.ends_cons rfl
  rw [readLine?, text, Text.dropWhile_span decimal ends, Text.takeWhile_span decimal ends]
  simp only [readNat?_address, readWord?_word]
  rfl

theorem oneLine_line (n : Nat) (word : Word) : OneLine (line n word) :=
  .append (.append (oneLine_address n) (by decide)) (oneLine_word word)

theorem oneLine_lines (executable : Executable) : ∀ line ∈ lines executable, OneLine line := by
  refine List.forall_mem_cons.2 ⟨.append (by decide) (oneLine_address _), ?_⟩
  intro text among
  obtain ⟨place, inside, rfl⟩ := List.mem_mapIdx.1 among
  exact oneLine_line place _

/-- A listing has the line of the start and a line for each word, and all of them are ended. -/
theorem splitOn_listing (executable : Executable) :
    executable.listing.toList.splitOn '\n' = (lines executable).map String.toList ++ [[]] :=
  splitOn_join_lines (oneLine_lines executable)

/-- The executable of a listing. -/
def read? (listing : String) : Option Executable :=
  match listing.toList.splitOn '\n' with
  | [] => none
  | first :: others => do
    let start ← Decimal.readNat? (first.drop "start: ".length)
    let words ← others.dropLast.mapM readLine?
    return { start, program := words.map Prod.snd }

/-- The listing of an executable can be read again. -/
theorem read?_listing (executable : Executable) :
    read? executable.listing = some executable := by
  obtain ⟨start, program⟩ := executable
  have first : ("start: " ++ address start).toList.drop "start: ".length =
      (address start).toList := by
    rw [String.toList_append]
    rfl
  have words : ((program.mapIdx line).map String.toList).mapM readLine? =
      some (program.zipIdx.map Prod.swap) := by
    have each : ∀ placed : Word × Nat,
        readLine? (line placed.2 placed.1).toList = some placed.swap :=
      fun placed => readLine?_line placed.2 placed.1
    rw [List.mapIdx_eq_zipIdx_map, List.map_map]
    exact mapM_map_some each program.zipIdx
  have program' : (program.zipIdx.map Prod.swap).map Prod.snd = program := by
    rw [List.map_map]
    exact List.zipIdx_map_fst 0 program
  rw [read?, splitOn_listing, lines, List.map_cons, List.cons_append]
  simp only [first, readNat?_address, List.dropLast_concat, words, program', bind, Option.bind]
  rfl

/-! ## Nothing is lost -/

/-- A listing loses nothing. Executables with one listing are one executable, words that are shown
alike are one word, and a listing has exactly one line for each word, in the order of the addresses,
behind the line of the start. -/
theorem listings_lose_nothing :
    (∀ left right : Executable, left.listing = right.listing → left = right) ∧
    (∀ left right : Word, Listing.word left = Listing.word right → left = right) ∧
    ∀ executable : Executable,
      executable.listing.toList.splitOn '\n' =
        ("start: " ++ address executable.start).toList ::
          (executable.program.mapIdx line).map String.toList ++ [[]] := by
  refine ⟨?executables, ?words, splitOn_listing⟩
  case executables =>
    intro left right same
    have read := read?_listing left
    rw [same, read?_listing right] at read
    exact (Option.some.inj read).symm
  case words =>
    intro left right same
    have read := readWord?_word left
    rw [same, readWord?_word right] at read
    exact (Option.some.inj read).symm

/-- Data is shown neither like a command without arguments that has a text nor like one that has
none, and commands that are shown alike are the same. -/
theorem listings_lose_nothing_single_numbers :
    Executable.listing ⟨0, [.data 22]⟩ ≠ Executable.listing ⟨0, [.command 22 []]⟩ ∧
    Executable.listing ⟨0, [.data 23]⟩ ≠ Executable.listing ⟨0, [.command 23 []]⟩ ∧
    (⟨0, [.ofOp .hlt []]⟩ : Executable) = ⟨0, [.command 22 []]⟩ := by
  refine ⟨?_, ?_, ?_⟩
  · intro same
    have equal : (⟨0, [.data 22]⟩ : Executable) = ⟨0, [.command 22 []]⟩ :=
      listings_lose_nothing.1 _ _ same
    exact absurd equal (by decide)
  · intro same
    have equal : (⟨0, [.data 23]⟩ : Executable) = ⟨0, [.command 23 []]⟩ :=
      listings_lose_nothing.1 _ _ same
    exact absurd equal (by decide)
  · have same : Executable.listing ⟨0, [.ofOp .hlt []]⟩ =
        Executable.listing ⟨0, [.command 22 []]⟩ := by decide
    exact listings_lose_nothing.1 _ _ same

end Listing

end TickMachine
