import TickMachine.Proofs.Source.Literals
import TickMachine.Proofs.Source.Transitions

/-! # Lexing written lines

A program written line by line: a label and its colon, or a mnemonic with its arguments behind it,
separated by a comma and a blank. The lexer finds in each line the tokens that were written, and
goes on at the end of the line. -/

namespace TickMachine

/-- The kind and the value of a token. -/
def Token.content (token : Token) : TokenKind × String := (token.kind, token.value)

namespace Lexer

open Charset

/-- The texts that spell an argument of a kind and a value. -/
inductive Spelled : TokenKind → String → List Char → Prop
  | number {sign digits : List Char} (numeral : Numeral sign digits) :
    Spelled .number (String.ofList (sign ++ digits)) (sign ++ digits)
  | reference {name : List Char} (identifier : Identifier name) :
    Spelled .reference (String.ofList name) name
  | register {name : List Char} (identifier : Identifier name) :
    Spelled .register (String.ofList name) ('%' :: name)
  | string {body value : List Char} (unescapes : Literal.Unescapes body value) :
    Spelled .string (String.ofList value) ('"' :: (body ++ ['"']))

/-- The characters that continue an argument of a kind. -/
def continues : TokenKind → Char → Bool
  | .string => fun _ => false
  | .number => Char.isDigit
  | _ => isSymbol

/-- An argument as it is written. -/
structure Spelling where
  kind : TokenKind
  value : String
  text : List Char

/-- The kind and the value of an argument. -/
def Spelling.content (argument : Spelling) : TokenKind × String := (argument.kind, argument.value)

/-- A line as it is written. -/
inductive Line
  | label (name : List Char)
  | instruction (name : List Char) (arguments : List Spelling)

/-- The texts of arguments behind the first one. -/
def followers : List Spelling → List Char
  | [] => []
  | argument :: arguments => ',' :: ' ' :: (argument.text ++ followers arguments)

namespace Line

/-- The text of a line. -/
def text : Line → List Char
  | label name => name ++ [':']
  | instruction name [] => name
  | instruction name (argument :: arguments) =>
    name ++ ' ' :: (argument.text ++ followers arguments)

/-- A line that can be read: its parts are spelled as they should be. -/
def Readable : Line → Prop
  | label name => Identifier name
  | instruction name arguments =>
    Identifier name ∧ ∀ argument ∈ arguments, Spelled argument.kind argument.value argument.text

end Line

/-- The tokens of arguments behind the first one, from the place of the comma on. -/
def followerTokens (position : Nat) : List Spelling → List Token
  | [] => []
  | argument :: arguments =>
    ⟨argument.kind, argument.value, position + 2⟩ ::
      followerTokens (position + 2 + argument.text.length) arguments

/-- The tokens of a line that starts at a place. -/
def Line.tokens (position : Nat) : Line → List Token
  | label name => [⟨.label, String.ofList name, position⟩]
  | instruction name [] => [⟨.instruction, String.ofList name, position⟩]
  | instruction name (argument :: arguments) =>
    ⟨.instruction, String.ofList name, position⟩ ::
      ⟨argument.kind, argument.value, position + name.length + 1⟩ ::
      followerTokens (position + name.length + 1 + argument.text.length) arguments

/-! ## Lines and their tokens -/

theorem followerTokens_content (position : Nat) (arguments : List Spelling) :
    (followerTokens position arguments).map Token.content =
      arguments.map Spelling.content := by
  induction arguments generalizing position with
  | nil => rfl
  | cons argument arguments ih =>
    rw [followerTokens, List.map_cons, List.map_cons, ih]
    rfl

/-- The tokens of an instruction line: the mnemonic and the arguments. -/
theorem instruction_tokens (name : List Char) (arguments : List Spelling) (position : Nat) :
    ∃ tokens, (Line.instruction name arguments).tokens position =
        ⟨.instruction, String.ofList name, position⟩ :: tokens ∧
      tokens.map Token.content = arguments.map Spelling.content := by
  cases arguments with
  | nil => exact ⟨[], rfl, rfl⟩
  | cons argument arguments =>
    refine ⟨_, rfl, ?_⟩
    rw [List.map_cons, List.map_cons, followerTokens_content]
    rfl

theorem intercalate_followers (argument : Spelling) (arguments : List Spelling) :
    [',', ' '].intercalate ((argument :: arguments).map Spelling.text) =
      argument.text ++ followers arguments := by
  induction arguments generalizing argument with
  | nil => simp [followers]
  | cons next arguments ih =>
    rw [List.map_cons, List.map_cons, List.intercalate_cons_cons, ← List.map_cons, ih]
    simp [followers]

/-! ## Arguments -/

theorem numeral_start {sign digits : List Char} (numeral : Numeral sign digits) :
    ∃ c rest, sign ++ digits = c :: rest ∧ (c.isDigit = true ∨ isSign c = true) := by
  rcases numeral.marked with rfl | ⟨c, rfl, mark⟩
  · obtain ⟨c, rest, parts⟩ := List.exists_cons_of_ne_nil numeral.filled
    exact ⟨c, rest, parts, .inl (numeral.decimal c (parts ▸ List.mem_cons_self))⟩
  · exact ⟨c, digits, rfl, .inr mark⟩

theorem isBlank_of_isDigit {c : Char} (digit : c.isDigit = true) : isBlank c = false := by
  rw [Bool.eq_false_iff]
  intro blank
  simp only [isBlank, Bool.or_eq_true, beq_iff_eq] at blank
  rcases blank with (rfl | rfl) | rfl <;> contradiction

theorem isBlank_of_isSign {c : Char} (sign : isSign c = true) : isBlank c = false := by
  simp only [isSign, Bool.or_eq_true, beq_iff_eq] at sign
  rcases sign with rfl | rfl <;> rfl

theorem ends_digits {rest : List Char} (ends : Text.Ends isSymbol rest) :
    Text.Ends Char.isDigit rest := by
  intro c head
  have outside := ends c head
  rw [isSymbol, Bool.or_eq_false_iff] at outside
  have alphanumeric : (c.isAlpha || c.isDigit) = false := outside.1
  exact (Bool.or_eq_false_iff.1 alphanumeric).2

theorem ends_continues {rest : List Char} (ends : Text.Ends isSymbol rest) (kind : TokenKind) :
    Text.Ends (continues kind) rest := by
  cases kind with
  | number => exact ends_digits ends
  | string => exact fun _ _ => rfl
  | label | instruction | reference | register => exact ends

/-- Arguments start with a visible character. -/
theorem spelled_start {kind : TokenKind} {value : String} {text : List Char}
    (spelled : Spelled kind value text) :
    ∃ c rest, text = c :: rest ∧ isBlank c = false ∧ c ≠ '\n' := by
  cases spelled with
  | number numeral =>
    obtain ⟨c, rest, parts, numeric⟩ := numeral_start numeral
    refine ⟨c, rest, parts, ?_, ?_⟩
    · rcases numeric with digit | sign
      · exact isBlank_of_isDigit digit
      · exact isBlank_of_isSign sign
    · rintro rfl
      rcases numeric with digit | sign <;> contradiction
  | reference identifier =>
    obtain ⟨c, rest, rfl, start⟩ := identifier.start
    have visible := isSpace_of_isStart start
    rw [isSpace, Bool.or_eq_false_iff] at visible
    exact ⟨c, rest, rfl, visible.1, ne_of_isStart start rfl⟩
  | register identifier => exact ⟨'%', _, rfl, rfl, by decide⟩
  | string unescapes => exact ⟨'"', _, rfl, rfl, by decide⟩

theorem string_passes {body value : List Char} (unescapes : Literal.Unescapes body value)
    (rest : List Char) :
    Passes .string ('"' :: (body ++ ['"'])) rest .separator
      (some (.string, String.ofList value)) := by
  have closed := Literal.scan_closed unescapes 1 rest
  rw [Passes, List.cons_append, List.append_assoc, List.singleton_append]
  simp only [Mode.transition, string, closed, List.length_cons, List.length_append,
    List.length_nil]
  rw [Nat.add_right_comm 1, Nat.add_comm _ body.length]

/-- A spelled argument gives its token. -/
theorem finish_spelled {kind : TokenKind} {value : String} {text rest : List Char}
    (spelled : Spelled kind value text) (ends : Text.Ends (continues kind) rest)
    (found : List Token) (position : Nat) :
    Scan.finish found ⟨.argument, position, text ++ rest⟩ =
      Scan.finish (⟨kind, value, position⟩ :: found)
        ⟨.separator, position + text.length, rest⟩ := by
  cases spelled with
  | @number sign digits numeral =>
    obtain ⟨c, others, parts, numeric⟩ := numeral_start numeral
    have yields : Passes .argument [] (sign ++ digits ++ rest) .number none := by
      rw [parts]
      exact argument_yields_number numeric
    rw [finish_yields yields rfl, finish_passes (number_passes numeral ends) rfl]
    rfl
  | reference identifier =>
    obtain ⟨c, others, parts, start⟩ := identifier.start
    have yields : Passes .argument [] (text ++ rest) .reference none := by
      rw [parts]
      exact argument_yields_reference start
    rw [finish_yields yields rfl, finish_passes (reference_passes identifier ends) rfl]
    rfl
  | @register name identifier =>
    have yields := argument_yields_register (name ++ rest)
    rw [List.cons_append, finish_yields yields rfl]
    exact finish_passes (register_passes identifier ends) rfl found position
  | @string body value unescapes =>
    have yields : Passes .argument [] ('"' :: (body ++ ['"']) ++ rest) .string none := rfl
    rw [finish_yields yields rfl]
    exact finish_passes (string_passes unescapes rest) rfl found position

theorem ends_followers {rest : List Char} (line : EndsLine rest) (arguments : List Spelling) :
    Text.Ends isSymbol (followers arguments ++ rest) := by
  cases arguments with
  | nil => exact endsLine_ends line rfl
  | cons argument arguments => exact Text.ends_cons rfl

/-- The remaining arguments of a line give their tokens. -/
theorem finish_followers {arguments : List Spelling} {rest : List Char} (line : EndsLine rest)
    (spelled : ∀ argument ∈ arguments, Spelled argument.kind argument.value argument.text)
    (found : List Token) (position : Nat) :
    Scan.finish found ⟨.separator, position, followers arguments ++ rest⟩ =
      Scan.finish ((followerTokens position arguments).reverse ++ found)
        ⟨.top, position + (followers arguments).length, rest⟩ := by
  induction arguments generalizing found position with
  | nil =>
    have other : rest.head? ≠ some ',' := head?_ne_of_endsLine line (by decide)
    have yields : Passes .separator [] rest .argument none :=
      separator_passes Text.inside_nil (endsLine_ends line rfl) other
    rw [followers, List.nil_append, finish_yields yields rfl, finish_argument_line line]
    rfl
  | cons argument arguments ih =>
    have first := spelled argument List.mem_cons_self
    have others := fun other member => spelled other (List.mem_cons_of_mem _ member)
    obtain ⟨c, behind, parts, blank, -⟩ := spelled_start first
    have comma : Passes .separator [',', ' '] (argument.text ++ (followers arguments ++ rest))
        .argument none := by
      have white : ∀ c ∈ [' '], isBlank c = true := List.all_eq_true.1 rfl
      rw [parts]
      exact separator_passes_comma Text.inside_nil white (Text.ends_cons blank)
    have text : followers (argument :: arguments) ++ rest =
        [',', ' '] ++ (argument.text ++ (followers arguments ++ rest)) := by
      simp [followers]
    have place : position + 2 + argument.text.length + (followers arguments).length =
        position + (followers (argument :: arguments)).length := by
      simp only [followers, List.length_cons, List.length_append]
      omega
    have tokens : (followerTokens (position + 2 + argument.text.length) arguments).reverse ++
        ⟨argument.kind, argument.value, position + 2⟩ :: found =
          (followerTokens position (argument :: arguments)).reverse ++ found := by
      simp [followerTokens]
    rw [text, finish_passes comma rfl]
    refine (finish_spelled first (ends_continues (ends_followers line arguments) _) found
      (position + 2)).trans ?_
    rw [ih others, place, tokens]

/-! ## Lines -/

theorem finish_label {name rest : List Char} (identifier : Identifier name) (found : List Token)
    (position : Nat) :
    Scan.finish found ⟨.top, position, name ++ ':' :: rest⟩ =
      Scan.finish (⟨.label, String.ofList name, position⟩ :: found)
        ⟨.top, position + (name ++ [':']).length, rest⟩ := by
  have yields : Passes .top [] (name ++ ':' :: rest) .label none := by
    have entered : Passes .top [] (name ++ ':' :: rest) _ none := top_identifier identifier
    rwa [labelAhead_colon identifier, if_pos rfl] at entered
  have text : name ++ ':' :: rest = (name ++ [':']) ++ rest := by simp
  rw [finish_yields yields rfl, text]
  exact finish_passes (label_passes identifier) rfl found position

theorem finish_mnemonic {name rest : List Char} (identifier : Identifier name)
    (ends : Text.Ends isSymbol rest) (other : rest.head? ≠ some ':') (found : List Token)
    (position : Nat) :
    Scan.finish found ⟨.top, position, name ++ rest⟩ =
      Scan.finish found ⟨.instruction, position, name ++ rest⟩ := by
  have yields : Passes .top [] (name ++ rest) .instruction none := by
    have entered : Passes .top [] (name ++ rest) _ none := top_identifier identifier
    rwa [labelAhead_other identifier ends other, if_neg Bool.false_ne_true] at entered
  exact finish_yields yields rfl found position

theorem finish_bare {name rest : List Char} (identifier : Identifier name) (line : EndsLine rest)
    (found : List Token) (position : Nat) :
    Scan.finish found ⟨.top, position, name ++ rest⟩ =
      Scan.finish (⟨.instruction, String.ofList name, position⟩ :: found)
        ⟨.top, position + name.length, rest⟩ := by
  have other : rest.head? ≠ some ':' := head?_ne_of_endsLine line (by decide)
  have moves := finish_instruction identifier Text.inside_nil
    (by exact endsLine_ends line rfl) (endsLine_ends line rfl) found position
  rw [List.append_nil] at moves
  rw [finish_mnemonic identifier (endsLine_ends line rfl) other, moves, finish_argument_line line]

theorem finish_operands {name : List Char} {argument : Spelling} {arguments : List Spelling}
    (identifier : Identifier name)
    (first : Spelled argument.kind argument.value argument.text)
    (others : ∀ other ∈ arguments, Spelled other.kind other.value other.text) {rest : List Char}
    (ends : EndsLine rest) (found : List Token) (position : Nat) :
    Scan.finish found
        ⟨.top, position, (Line.instruction name (argument :: arguments)).text ++ rest⟩ =
      Scan.finish
        (((Line.instruction name (argument :: arguments)).tokens position).reverse ++ found)
        ⟨.top, position + (Line.instruction name (argument :: arguments)).text.length, rest⟩ := by
  obtain ⟨c, behind, parts, blank, visible⟩ := spelled_start first
  let operands : List Char := argument.text ++ (followers arguments ++ rest)
  have operandsVisible : Text.Ends isBlank operands := by
    show Text.Ends isBlank (argument.text ++ (followers arguments ++ rest))
    rw [parts]
    exact Text.ends_cons blank
  have white : ∀ c ∈ [' '], isBlank c = true := List.all_eq_true.1 rfl
  have text : (Line.instruction name (argument :: arguments)).text ++ rest =
      name ++ ' ' :: operands := by
    simp [Line.text, operands]
  have chunks : name ++ ' ' :: operands = (name ++ [' ']) ++ operands := by simp
  have place : position + (name ++ [' ']).length + argument.text.length +
      (followers arguments).length =
        position + (Line.instruction name (argument :: arguments)).text.length := by
    simp only [Line.text, List.length_append, List.length_cons, List.length_nil]
    omega
  have tokens : (followerTokens (position + (name ++ [' ']).length + argument.text.length)
      arguments).reverse ++ ⟨argument.kind, argument.value, position + (name ++ [' ']).length⟩ ::
        ⟨.instruction, String.ofList name, position⟩ :: found =
          ((Line.instruction name (argument :: arguments)).tokens position).reverse ++ found := by
    simp [Line.tokens, Nat.add_assoc]
  rw [text, finish_mnemonic identifier (Text.ends_cons rfl) (by simp), chunks,
    finish_instruction identifier white (Text.ends_cons rfl) operandsVisible]
  refine (finish_spelled first (ends_continues (ends_followers ends arguments) _) _ _).trans ?_
  refine (finish_followers ends others _ _).trans ?_
  rw [place]
  exact congrArg (fun found => Scan.finish found _) tokens

/-- A readable line gives its tokens, and the lexer goes on at the end of the line. -/
theorem finish_line {line : Line} (readable : line.Readable) {rest : List Char}
    (ends : EndsLine rest) (found : List Token) (position : Nat) :
    Scan.finish found ⟨.top, position, line.text ++ rest⟩ =
      Scan.finish ((line.tokens position).reverse ++ found)
        ⟨.top, position + line.text.length, rest⟩ := by
  cases line with
  | label name =>
    rw [Line.text, List.append_assoc]
    exact finish_label readable found position
  | instruction name arguments =>
    obtain ⟨identifier, spelled⟩ := readable
    cases arguments with
    | nil => exact finish_bare identifier ends found position
    | cons argument arguments =>
      have first := spelled argument List.mem_cons_self
      have others := fun other member => spelled other (List.mem_cons_of_mem _ member)
      exact finish_operands identifier first others ends found position

/-! ## Texts -/

/-- The text of lines, with a line break between one and the next. -/
def joined (lines : List Line) : List Char := ['\n'].intercalate (lines.map Line.text)

/-- The tokens of lines, the first of which starts at a place. -/
def tokensOf (position : Nat) : List Line → List Token
  | [] => []
  | line :: lines => line.tokens position ++ tokensOf (position + line.text.length + 1) lines

theorem joined_cons_cons (first second : Line) (lines : List Line) :
    joined (first :: second :: lines) = first.text ++ '\n' :: joined (second :: lines) := by
  simp only [joined, List.map_cons, List.intercalate_cons_cons, List.append_assoc,
    List.singleton_append]

/-- Readable lines give their tokens. -/
theorem finish_lines {lines : List Line} (readable : ∀ line ∈ lines, line.Readable)
    {rest : List Char} (ends : EndsLine rest) (found : List Token) (position : Nat) :
    Scan.finish found ⟨.top, position, joined lines ++ rest⟩ =
      Scan.finish ((tokensOf position lines).reverse ++ found)
        ⟨.top, position + (joined lines).length, rest⟩ := by
  induction lines generalizing found position with
  | nil => rfl
  | cons line lines ih =>
    have first := readable line List.mem_cons_self
    have others := fun other member => readable other (List.mem_cons_of_mem _ member)
    cases lines with
    | nil =>
      have text : joined [line] = line.text := by simp [joined]
      rw [text, finish_line first ends]
      simp [tokensOf]
    | cons second lines =>
      have white : ∀ c ∈ ['\n'], isSpace c = true := List.all_eq_true.1 rfl
      have place : position + line.text.length + ['\n'].length + (joined (second :: lines)).length =
          position + (joined (line :: second :: lines)).length := by
        rw [joined_cons_cons]
        simp only [List.length_append, List.length_cons, List.length_nil]
        omega
      have tokens : (tokensOf (position + line.text.length + ['\n'].length)
          (second :: lines)).reverse ++ ((line.tokens position).reverse ++ found) =
            (tokensOf position (line :: second :: lines)).reverse ++ found := by
        rw [tokensOf.eq_2 position, List.reverse_append, List.append_assoc]
        rfl
      have text : joined (line :: second :: lines) ++ rest =
          line.text ++ '\n' :: (joined (second :: lines) ++ rest) := by
        rw [joined_cons_cons, List.append_assoc, List.cons_append]
      rw [text, finish_line first (.inr ⟨_, rfl⟩)]
      refine (finish_space white (joined (second :: lines) ++ rest) _ _).trans ?_
      rw [ih others, place, tokens]

/-- The tokens of a text of readable lines, whether or not there is a line break at its end. -/
theorem lex_lines {lines : List Line} (readable : ∀ line ∈ lines, line.Readable) :
    lex (String.ofList (joined lines)) = .ok (tokensOf 0 lines) ∧
      lex (String.ofList (joined lines) ++ "\n") = .ok (tokensOf 0 lines) := by
  have plain : tokenize (String.ofList (joined lines)) = ⟨tokensOf 0 lines, none⟩ := by
    have run := finish_lines readable (.inl rfl) [] 0
    rw [List.append_nil, List.append_nil, finish_end, List.reverse_reverse] at run
    rw [tokenize, String.toList_ofList]
    exact run
  have ended : tokenize (String.ofList (joined lines) ++ "\n") = ⟨tokensOf 0 lines, none⟩ := by
    have white : ∀ c ∈ ['\n'], isSpace c = true := List.all_eq_true.1 rfl
    have run := finish_lines readable (.inr ⟨[], rfl⟩) [] 0
    have tail := finish_space white [] ((tokensOf 0 lines).reverse ++ [])
      (0 + (joined lines).length)
    rw [List.append_nil, List.append_nil] at tail
    rw [List.append_nil, tail, finish_end, List.reverse_reverse] at run
    rw [tokenize, String.toList_append, String.toList_ofList]
    exact run
  constructor
  · simp only [lex, plain]
  · simp only [lex, ended]

end Lexer

end TickMachine
