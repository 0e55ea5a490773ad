import TickMachine.Proofs.Assembly.Items
import TickMachine.Proofs.Source.Positions

/-! # Printing tokens

Tokens printed line by line, and read back. The tokens that can be printed are those that a text can
have: labels, and mnemonics with their arguments behind them, each of them of its lexical class. -/

namespace TickMachine

open Lexer (Identifier Numeral Spelling Spelled Line)

/-! ## Printed tokens -/

/-- The inside of the literal that stands for a text: the quote and the backslash are escaped. -/
def Literal.escaped (text : List Char) : List Char :=
  text.flatMap fun c => if c = '"' ∨ c = '\\' then ['\\', c] else [c]

/-- The text of a token that is printed by itself. -/
def Token.printed (token : Token) : String :=
  match token.kind with
  | .label => token.value ++ ":"
  | .register => "%" ++ token.value
  | .string => "\"" ++ String.ofList (Literal.escaped token.value.toList) ++ "\""
  | .instruction | .number | .reference => token.value

/-- The line of a part. Its arguments stand behind the first token, with commas between them. -/
def Part.printed (part : Part) : String :=
  match part.arguments with
  | [] => part.head.printed ++ "\n"
  | arguments => part.head.printed ++ " " ++ ", ".intercalate (arguments.map Token.printed) ++ "\n"

/-- The text of a sequence of tokens, with a line for each part. -/
def printed (tokens : List Token) : String := String.join ((parts tokens).map Part.printed)

/-! ## Tokens that can be printed -/

/-- Labels, and mnemonics with the arguments behind them. -/
inductive Orderly : List Token → Prop
  | nil : Orderly []
  | label {head : Token} {tokens : List Token} (kind : head.kind = .label)
    (others : Orderly tokens) : Orderly (head :: tokens)
  | instruction {head : Token} {arguments tokens : List Token} (kind : head.kind = .instruction)
    (inside : ∀ argument ∈ arguments, argument.isArgument = true) (others : Orderly tokens) :
    Orderly (head :: (arguments ++ tokens))

/-- Whether the value of a token is of the class of its kind. -/
def Token.Lexical (token : Token) : Prop :=
  match token.kind with
  | .number => ∃ sign digits, token.value.toList = sign ++ digits ∧ Numeral sign digits
  | .string => True
  | .label | .instruction | .reference | .register => Identifier token.value.toList

/-- Tokens that are in order and of their classes. -/
structure Printable (tokens : List Token) : Prop where
  orderly : Orderly tokens
  lexical : ∀ token ∈ tokens, token.Lexical

/-- Tokens whose text is read as tokens of the same kinds and values. -/
def ReadBack (tokens : List Token) : Prop :=
  ∃ again, tokenize (printed tokens) = ⟨again, none⟩ ∧
    again.map Token.content = tokens.map Token.content

/-! ## Lines -/

theorem Literal.unescapes_escaped (text : List Char) : Unescapes (escaped text) text := by
  induction text with
  | nil => exact .nil
  | cons c text ih =>
    rw [escaped, List.flatMap_cons]
    by_cases quote : c = '"'
    · subst quote
      exact .escape rfl ih
    · by_cases backslash : c = '\\'
      · subst backslash
        exact .escape rfl ih
      · rw [if_neg (not_or.2 ⟨quote, backslash⟩)]
        exact .plain quote backslash ih

/-- A printed argument is spelled as it should be. -/
theorem spelled_printed {token : Token} (argument : token.isArgument = true)
    (lexical : token.Lexical) : Spelled token.kind token.value token.printed.toList := by
  obtain ⟨kind, value, position⟩ := token
  cases kind with
  | label | instruction => cases argument
  | number =>
    obtain ⟨sign, digits, split, numeral⟩ := lexical
    have spelled := Spelled.number numeral
    rwa [← split, String.ofList_toList] at spelled
  | string =>
    have spelled := Spelled.string (Literal.unescapes_escaped value.toList)
    rw [String.ofList_toList] at spelled
    simpa [Token.printed] using spelled
  | reference =>
    have spelled := Spelled.reference lexical
    rwa [String.ofList_toList] at spelled
  | register =>
    have spelled := Spelled.register lexical
    rw [String.ofList_toList] at spelled
    simpa [Token.printed] using spelled

/-- An argument as it is printed. -/
def Token.spelling (token : Token) : Spelling := ⟨token.kind, token.value, token.printed.toList⟩

/-- The kinds and the values that are read from a line. -/
def Lexer.Line.content : Line → List (TokenKind × String)
  | .label name => [(.label, String.ofList name)]
  | .instruction name arguments =>
    (.instruction, String.ofList name) :: arguments.map Spelling.content

/-- Lines as which tokens are printed. -/
structure Prints (tokens : List Token) (lines : List Line) : Prop where
  readable : ∀ line ∈ lines, line.Readable
  text : (printed tokens).toList = lines.flatMap fun line => line.text ++ ['\n']
  content : lines.flatMap Line.content = tokens.map Token.content

theorem printed_cons {token : Token} {used rest : List Token}
    (arguments : ∀ argument ∈ used, argument.isArgument = true)
    (ends : Text.Ends Token.isArgument rest) :
    (printed (token :: (used ++ rest))).toList =
      (Part.printed ⟨token, used⟩).toList ++ (printed rest).toList := by
  unfold printed
  rw [parts_cons arguments ends, List.map_cons, String.toList_join, List.flatMap_cons,
    String.toList_join]

theorem ends_of_orderly {tokens : List Token} (orderly : Orderly tokens) :
    Text.Ends Token.isArgument tokens := by
  cases orderly with
  | nil => exact Text.ends_nil
  | label kind | instruction kind => exact Text.ends_cons (by rw [Token.isArgument, kind]; rfl)

/-- The line of a label. -/
theorem Prints.label {head : Token} {tokens : List Token} {lines : List Line}
    (kind : head.kind = .label) (lexical : head.Lexical) (orderly : Orderly tokens)
    (others : Prints tokens lines) :
    Prints (head :: tokens) (.label head.value.toList :: lines) := by
  have first : (printed (head :: ([] ++ tokens))).toList = _ :=
    printed_cons Text.inside_nil (ends_of_orderly orderly)
  refine ⟨List.forall_mem_cons.2 ⟨?_, others.readable⟩, ?_, ?_⟩
  · unfold Token.Lexical at lexical
    rwa [kind] at lexical
  · rw [List.nil_append] at first
    rw [first, others.text, List.flatMap_cons, Part.printed, Token.printed, kind]
    simp [Line.text]
  · rw [List.flatMap_cons, others.content, List.map_cons, Token.content, kind]
    simp [Line.content]

theorem printed_instruction {head : Token} (kind : head.kind = .instruction)
    (arguments : List Token) :
    (Part.printed ⟨head, arguments⟩).toList =
      (Line.instruction head.value.toList (arguments.map Token.spelling)).text ++ ['\n'] := by
  have name : head.printed = head.value := by rw [Token.printed, kind]
  cases arguments with
  | nil => simp [Part.printed, name, Line.text]
  | cons argument arguments =>
    have texts : [',', ' '].intercalate
        (((argument :: arguments).map Token.printed).map String.toList) =
          argument.spelling.text ++ Lexer.followers (arguments.map Token.spelling) := by
      rw [← Lexer.intercalate_followers, ← List.map_cons, List.map_map, List.map_map]
      rfl
    have comma : ", ".toList = [',', ' '] := rfl
    rw [List.map_cons, Line.text, ← texts]
    simp only [Part.printed, name, String.toList_append, String.toList_intercalate, comma]
    simp

/-- The line of a mnemonic and its arguments. -/
theorem Prints.instruction {head : Token} {arguments tokens : List Token} {lines : List Line}
    (kind : head.kind = .instruction) (inside : ∀ argument ∈ arguments, argument.isArgument = true)
    (lexical : head.Lexical) (classes : ∀ argument ∈ arguments, argument.Lexical)
    (orderly : Orderly tokens) (others : Prints tokens lines) :
    Prints (head :: (arguments ++ tokens))
      (.instruction head.value.toList (arguments.map Token.spelling) :: lines) := by
  refine ⟨List.forall_mem_cons.2 ⟨⟨?_, ?_⟩, others.readable⟩, ?_, ?_⟩
  · unfold Token.Lexical at lexical
    rwa [kind] at lexical
  · intro argument member
    obtain ⟨token, source, rfl⟩ := List.mem_map.1 member
    exact spelled_printed (inside token source) (classes token source)
  · rw [printed_cons inside (ends_of_orderly orderly), others.text, List.flatMap_cons,
      printed_instruction kind]
  · have contents : (arguments.map Token.spelling).map Spelling.content =
        arguments.map Token.content := by
      rw [List.map_map]
      rfl
    have name : head.content = (.instruction, head.value) := by rw [Token.content, kind]
    rw [List.flatMap_cons, others.content, Line.content, contents, String.ofList_toList,
      List.map_cons, List.map_append, name]
    rfl

theorem exists_prints {tokens : List Token} (printable : Printable tokens) :
    ∃ lines, Prints tokens lines := by
  obtain ⟨orderly, lexical⟩ := printable
  induction orderly with
  | nil =>
    refine ⟨[], nofun, ?_, rfl⟩
    rw [printed, parts_nil]
    rfl
  | label kind orderly ih =>
    have classes := List.forall_mem_cons.1 lexical
    obtain ⟨lines, prints⟩ := ih classes.2
    exact ⟨_, prints.label kind classes.1 orderly⟩
  | instruction kind inside orderly ih =>
    have classes := List.forall_mem_cons.1 lexical
    have others := List.forall_mem_append.1 classes.2
    obtain ⟨lines, prints⟩ := ih others.2
    exact ⟨_, prints.instruction kind inside classes.1 others.1 orderly⟩

/-! ## Reading the lines back -/

theorem tokens_content (line : Line) (position : Nat) :
    (line.tokens position).map Token.content = line.content := by
  cases line with
  | label name => rfl
  | instruction name arguments =>
    obtain ⟨tokens, text, contents⟩ := Lexer.instruction_tokens name arguments position
    rw [text, List.map_cons, contents]
    rfl

theorem tokensOf_content (lines : List Line) (position : Nat) :
    (Lexer.tokensOf position lines).map Token.content = lines.flatMap Line.content := by
  induction lines generalizing position with
  | nil => rfl
  | cons line lines ih =>
    rw [Lexer.tokensOf, List.map_append, tokens_content, ih, List.flatMap_cons]

theorem joined_newline (line : Line) (lines : List Line) :
    Lexer.joined (line :: lines) ++ ['\n'] =
      (line :: lines).flatMap fun line => line.text ++ ['\n'] := by
  induction lines generalizing line with
  | nil => simp [Lexer.joined]
  | cons second lines ih =>
    rw [Lexer.joined_cons_cons, List.append_assoc, List.cons_append, ih, List.flatMap_cons]
    simp

theorem eq_of_lex {text : String} {tokens : List Token} (lexed : lex text = .ok tokens) :
    tokenize text = ⟨tokens, none⟩ := by
  unfold lex at lexed
  split at lexed
  · cases lexed
  · next ended =>
    cases lexed
    rw [← ended]

/-- Tokens that can be printed are read back. -/
theorem readBack_of_printable {tokens : List Token} (printable : Printable tokens) :
    ReadBack tokens := by
  obtain ⟨lines, readable, text, content⟩ := exists_prints printable
  refine ⟨Lexer.tokensOf 0 lines, eq_of_lex ?_, by rw [tokensOf_content, content]⟩
  obtain ⟨plain, ended⟩ := Lexer.lex_lines readable
  rw [← String.ofList_toList (s := printed tokens), text]
  cases lines with
  | nil => exact plain
  | cons line lines =>
    rw [← joined_newline, String.ofList_append]
    exact ended

/-! ## The tokens of a text can be printed -/

/-- The arguments of the item in which a zone lies, and the items behind them. -/
def Continues (zone : Lexer.Zone) (tokens : List Token) : Prop :=
  ∃ arguments others, tokens = arguments ++ others ∧
    (∀ argument ∈ arguments, argument.isArgument = true) ∧ (zone = .item → arguments = []) ∧
    Orderly others

theorem isArgument_of_spelled {token : Token} {text : List Char}
    (spelled : Spelled token.kind token.value text) : token.isArgument = true := by
  obtain ⟨kind, value, position⟩ := token
  cases spelled <;> rfl

theorem continues_of_items {zone : Lexer.Zone} {tokens : List Token}
    (items : Continues .item tokens) : Continues zone tokens := by
  obtain ⟨arguments, others, rfl, -, bare, orderly⟩ := items
  rw [bare rfl, List.nil_append]
  exact ⟨[], others, rfl, nofun, fun _ => rfl, orderly⟩

theorem continues_of_covers {zone : Lexer.Zone} {position : Nat} {text : List Char}
    {tokens : List Token} {error : Option LexError}
    (covers : Lexer.Covers zone position text tokens error) : Continues zone tokens := by
  induction covers with
  | blank _ _ ih => exact ih
  | line _ ih | comment _ _ _ ih => exact continues_of_items ih
  | comma _ ih =>
    obtain ⟨arguments, others, split, inside, -, orderly⟩ := ih
    exact ⟨arguments, others, split, inside, nofun, orderly⟩
  | label _ _ ih =>
    obtain ⟨arguments, others, rfl, -, bare, orderly⟩ := ih
    rw [bare rfl, List.nil_append]
    exact ⟨[], _, rfl, nofun, fun _ => rfl, .label rfl orderly⟩
  | mnemonic _ _ _ ih =>
    obtain ⟨arguments, others, rfl, inside, -, orderly⟩ := ih
    exact ⟨[], _, rfl, nofun, fun _ => rfl, .instruction rfl inside orderly⟩
  | @argument _ position kind value _ _ _ _ inside spelled _ _ ih =>
    obtain ⟨arguments, others, rfl, others_inside, -, orderly⟩ := ih
    have first : (⟨kind, value, position⟩ : Token).isArgument = true :=
      isArgument_of_spelled spelled
    exact ⟨⟨kind, value, position⟩ :: arguments, others, rfl,
      List.forall_mem_cons.2 ⟨first, others_inside⟩, fun same => absurd same inside, orderly⟩
  | done | failed => exact ⟨[], [], rfl, nofun, fun _ => rfl, .nil⟩

theorem lexical_of_lexeme {token : Token} {text : List Char}
    (lexeme : Lexer.Lexeme token.kind token.value text) : token.Lexical := by
  have named : ∀ name, Identifier name → Identifier (String.ofList name).toList := by
    intro name identifier
    rwa [String.toList_ofList]
  obtain ⟨kind, value, position⟩ := token
  cases lexeme with
  | label identifier | mnemonic identifier => exact named _ identifier
  | argument spelled =>
    cases spelled with
    | number numeral => exact ⟨_, _, String.toList_ofList, numeral⟩
    | reference identifier | register identifier => exact named _ identifier
    | string _ => trivial

/-- The tokens of every text are in order, up to an error as well. -/
theorem orderly_tokenize (text : String) : Orderly (tokenize text).tokens := by
  obtain ⟨arguments, others, split, -, bare, orderly⟩ :=
    continues_of_covers (Lexer.covers_tokenize text)
  rw [bare rfl, List.nil_append] at split
  rwa [split]

/-- The tokens of every text are of their classes. -/
theorem lexical_tokenize (text : String) : ∀ token ∈ (tokenize text).tokens, token.Lexical := by
  obtain ⟨occurrences, same, locates⟩ :=
    Lexer.locatesIn_of_covers (Lexer.covers_tokenize text) [] rfl
  intro token member
  rw [← same] at member
  obtain ⟨occurrence, inside, rfl⟩ := List.mem_map.1 member
  exact lexical_of_lexeme (locates.located.lexeme occurrence inside)

theorem printable_of_lex {text : String} {tokens : List Token} (lexed : lex text = .ok tokens) :
    Printable tokens := by
  have orderly := orderly_tokenize text
  have lexical := lexical_tokenize text
  rw [eq_of_lex lexed] at orderly lexical
  exact ⟨orderly, lexical⟩

/-- Printed tokens are read back, and the tokens of every text without an error can be printed. -/
theorem tokens_print_and_read_back :
    (∀ tokens, Printable tokens → ReadBack tokens) ∧
      ∀ text tokens, lex text = .ok tokens → Printable tokens ∧ ReadBack tokens := by
  refine ⟨fun tokens => readBack_of_printable, fun text tokens lexed => ?_⟩
  have printable := printable_of_lex lexed
  exact ⟨printable, readBack_of_printable printable⟩

/-- A string with quotes, a line break and a backslash in it stands behind arguments of every other
kind, and is printed and read back with them. What a text with such a string holds can be printed,
too. -/
theorem tokens_print_and_read_back_quoted :
    let tokens : List Token :=
      [⟨.label, "text", 5⟩, ⟨.instruction, "WORD", 0⟩, ⟨.number, "-05", 0⟩,
        ⟨.reference, "text", 0⟩, ⟨.register, "R0", 0⟩, ⟨.string, "\"a\"\n\\", 0⟩]
    let lexed : List Token :=
      [⟨.instruction, "WORD", 0⟩, ⟨.string, "\"\n", 5⟩, ⟨.number, "7", 13⟩]
    Printable tokens ∧
      printed tokens = "text:\nWORD -05, text, %R0, \"\\\"a\\\"\n\\\\\"\n" ∧ ReadBack tokens ∧
      lex "WORD \"\\\"\\n\", 7" = .ok lexed ∧ Printable lexed ∧ ReadBack lexed := by
  intro tokens lexed
  have word : Identifier "WORD".toList :=
    ⟨⟨_, _, rfl, rfl⟩, List.all_eq_true.1 (by decide +kernel)⟩
  have label : Identifier "text".toList :=
    ⟨⟨_, _, rfl, rfl⟩, List.all_eq_true.1 (by decide +kernel)⟩
  have register : Identifier "R0".toList :=
    ⟨⟨_, _, rfl, rfl⟩, List.all_eq_true.1 (by decide +kernel)⟩
  have number : Numeral ['-'] ['0', '5'] :=
    ⟨.inr ⟨'-', rfl, rfl⟩, List.all_eq_true.1 rfl, List.cons_ne_nil _ _⟩
  have printable : Printable tokens := by
    constructor
    · have arguments : ∀ argument ∈ tokens.drop 2, argument.isArgument = true :=
        List.all_eq_true.1 rfl
      exact .label rfl (.instruction rfl arguments .nil)
    · simp only [tokens, List.forall_mem_cons]
      exact ⟨label, word, ⟨_, _, rfl, number⟩, label, register, trivial, List.forall_mem_nil _⟩
  have read : lex "WORD \"\\\"\\n\", 7" = .ok lexed :=
    Lexer.lex_of_finishWithin 12 (by decide +kernel)
  obtain ⟨prints, readsBack⟩ := tokens_print_and_read_back
  exact ⟨printable, by decide +kernel, prints tokens printable, read, readsBack _ lexed read⟩

end TickMachine
