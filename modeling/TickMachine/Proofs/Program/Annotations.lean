import Mathlib.Data.List.Forall2
import TickMachine.Proofs.Assembly.Reassembly
import TickMachine.Proofs.Program.DescriptorRoundTrip

/-! # Annotations

A descriptor has a text beside the numbers of each word that can be written. The descriptor is read
as a plain document here, so that nothing of it is passed over: the text of a command is assembled
into the command again, and the text of data is its number. -/

namespace TickMachine

/-! ## Documents -/

namespace Json

/-- The number of arrays and objects that a document may have inside each other. -/
def documentLevels : Nat := 127

/-- Reads a text that is a JSON document. -/
def document (text : String) : Except Failure Value := do
  let (found, rest) ← value .kept text.length documentLevels text.toList
  endOfText rest
  return found

theorem document_pretty {v : Value} (fits : Fits documentLevels v) :
    document (v.pretty 0) = .ok v := by
  have enough : (v.pretty 0).toList.length ≤ (v.pretty 0).length :=
    Nat.le_of_eq String.length_toList
  have read := value_pretty .kept fits 0 enough Text.ends_nil
  rw [List.append_nil] at read
  rw [document, read]
  rfl

end Json

open Json (Value)

theorem Executable.fits_toDescriptor {executable : Executable}
    (addressable : executable.start < UInt64.size) (levels : Nat) :
    Json.Fits (levels + 4) executable.toDescriptor := by
  have start : Json.Fits (levels + 3) (.integer executable.start) :=
    .integer (by rwa [Int.natAbs_natCast])
  have program : Json.Fits (levels + 3) (.array (executable.program.map Word.toEntry)) := by
    apply Json.Fits.array
    intro entry among
    obtain ⟨word, -, rfl⟩ := List.mem_map.1 among
    exact word.fits_toEntry levels
  apply Json.Fits.object
  intro member among
  rcases List.mem_cons.1 among with rfl | among
  · exact start
  · obtain rfl := List.mem_singleton.1 among
    exact program

/-- The text of the descriptor of an executable is a document. -/
theorem Executable.document_toJson {executable : Executable}
    (addressable : executable.start < UInt64.size) :
    Json.document executable.toJson = .ok executable.toDescriptor :=
  Json.document_pretty (Executable.fits_toDescriptor addressable 123)

/-! ## Commands behind the start label -/

/-- The tokens of a label and of a line behind it. -/
theorem Lexer.lex_label_line {name : List Char} (identifier : Identifier name) {line : Line}
    (readable : line.Readable) {source : String}
    (text : source.toList = name ++ ':' :: ' ' :: line.text) :
    lex source = .ok (tokensOf 0 [.label name, line]) := by
  have white : ∀ c ∈ [' '], Charset.isSpace c = true := List.all_eq_true.1 rfl
  let label : Token := ⟨.label, String.ofList name, 0⟩
  let place : Nat := 0 + (name ++ [':']).length
  have gap := finish_space white line.text [label] place
  have run := finish_line readable (.inl rfl) [label] (place + [' '].length)
  rw [List.append_nil] at run
  have whole : tokenize source = ⟨tokensOf 0 [.label name, line], none⟩ := by
    rw [tokenize, Scan.start, text, finish_label identifier]
    refine (gap.trans run).trans ?_
    rw [finish_end, List.reverse_append, List.reverse_reverse]
    simp [tokensOf, Line.tokens, Line.text, label, place]
  simp only [lex, whole]

/-- A command that has a text is a program that is assembled from the text behind the start
label. -/
theorem assemble_command {opcode : Int32} {args : List Int32} {text : String}
    (written : Word.disassemble (.command opcode args) = .ok text) :
    assemble ("_start: " ++ text) = .ok ⟨0, [.command opcode args]⟩ := by
  have own : Word.sourceLine (.command opcode args) = .ok text := written
  obtain ⟨line, item, same, command⟩ := written_of_sourceLine own
  have label : Lexer.Identifier startLabel.toList := gives_startLine.readable
  have source : ("_start: " ++ text).toList = startLabel.toList ++ ':' :: ' ' :: line.text := by
    rw [same, String.toList_append]
    rfl
  have lexed := Lexer.lex_label_line label command.gives.readable source
  exact assemble_of_lines .nil (.cons command .nil) lexed

/-! ## Entries -/

/-- An entry with numbers and, where there is one, a text beside them. -/
def annotatedEntry (numbers : List Int32) (formatted : Option String) : Value :=
  let annotation := formatted.toList.map fun text => ("formatted", Value.string text)
  .object (("raw", .array (numbers.map fun value => .integer value.toInt)) :: annotation)

/-- What the text beside the numbers of a word is. It is there when the word has a text, and is this
text. The text of a command is assembled into the command behind the start label, and the text of
data is the decimal of its only number. -/
structure Annotates (formatted : Option String) (word : Word) : Prop where
  present : ∀ text, formatted = some text ↔ word.disassemble = .ok text
  command : ∀ opcode args, word = .command opcode args → ∀ text, formatted = some text →
    assemble ("_start: " ++ text) = .ok ⟨0, [word]⟩
  data : ∀ value, word = .data value → ∀ text, formatted = some text →
    word.raw = [value] ∧ text = Decimal.ofInt32 value ∧
      Decimal.readInt32? text.toList = some value

/-- The entry of a word in a document: its numbers, and the text that belongs beside them. -/
def DescribesWord (entry : Value) (word : Word) : Prop :=
  ∃ formatted, entry = annotatedEntry word.raw formatted ∧ Annotates formatted word

theorem toEntry_annotated (word : Word) :
    word.toEntry = annotatedEntry word.raw word.disassemble.toOption := by
  rw [Word.toEntry]
  cases word.disassemble <;> rfl

theorem annotates_disassemble (word : Word) : Annotates word.disassemble.toOption word where
  present := by
    intro text
    cases word.disassemble <;> simp [Except.toOption]
  command := by
    rintro opcode args rfl text formatted
    exact assemble_command (eq_ok_of_toOption formatted)
  data := by
    rintro value rfl text formatted
    have same : text = Decimal.ofInt32 value := (Option.some.inj formatted).symm
    refine ⟨rfl, same, ?_⟩
    rw [same, Decimal.readInt32?_ofInt32]

theorem describesWord_toEntry (word : Word) : DescribesWord word.toEntry word :=
  ⟨_, toEntry_annotated word, annotates_disassemble word⟩

/-- The text of the descriptor of an executable is a document with the start and with an entry for
each word in the order of the addresses, whose text agrees with its numbers. -/
theorem annotations_agree (executable : Executable) (addressable : executable.start < UInt64.size) :
    ∃ entries : List Value,
      Json.document executable.toJson = .ok (.object
        [("start", .integer executable.start), ("program", .array entries)]) ∧
      List.Forall₂ DescribesWord entries executable.program := by
  refine ⟨executable.program.map Word.toEntry, Executable.document_toJson addressable, ?_⟩
  induction executable.program with
  | nil => exact .nil
  | cons word program ih => exact .cons (describesWord_toEntry word) ih

/-- A command that has a text, one that has none, and data. -/
theorem annotations_agree_three_words :
    assemble "_start: LDI %R0, 5" = .ok ⟨0, [.command 11 [0, 5]]⟩ ∧
    Json.document (Executable.toJson ⟨1, [.command 11 [0, 5], .command 99 [1, 2], .data (-3)]⟩) =
      .ok (.object [("start", .integer 1), ("program", .array
        [annotatedEntry [11, 0, 5] (some "LDI %R0, 5"), annotatedEntry [99, 1, 2] none,
          annotatedEntry [-3] (some "-3")])]) := by
  obtain ⟨entries, read, each⟩ := annotations_agree
    ⟨1, [.command 11 [0, 5], .command 99 [1, 2], .data (-3)]⟩ (by decide)
  obtain _ | ⟨⟨first, rfl, command⟩, each⟩ := each
  obtain _ | ⟨⟨second, rfl, unknown⟩, each⟩ := each
  obtain _ | ⟨⟨third, rfl, data⟩, each⟩ := each
  cases each
  have written : Word.disassemble (.command 11 [0, 5]) = .ok "LDI %R0, 5" := rfl
  have text : first = some "LDI %R0, 5" := (command.present _).2 written
  have assembled := command.command 11 [0, 5] rfl "LDI %R0, 5" text
  have source : "_start: " ++ "LDI %R0, 5" = "_start: LDI %R0, 5" := by decide
  have none : second = none := by
    rw [Option.eq_none_iff_forall_ne_some]
    intro text formatted
    cases (unknown.present text).1 formatted
  have number : third = some "-3" := (data.present _).2 rfl
  subst text none number
  rw [source] at assembled
  exact ⟨assembled, read⟩

end TickMachine
