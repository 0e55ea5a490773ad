import TickMachine.Proofs.Text.Spans
import TickMachine.Source.Lexer

/-! # Transitions of the lexer

What the lexer does in front of a text of a known form: one statement for each mode, about the
characters that the transition passes over and the mode that follows. `finish_passes` chains them
into a run. -/

namespace TickMachine.Lexer

open Charset

/-! ## Runs -/

theorem finish_of_final {found : List Token} {scan : Scan} (final : scan.mode.isFinal = true) :
    scan.finish found = ⟨found.reverse, scan.error?⟩ := by
  rw [Scan.finish, if_pos final]

theorem finish_of_active {found : List Token} {scan : Scan} (active : scan.mode.isFinal = false) :
    scan.finish found = scan.next.finish (scan.token?.toList ++ found) := by
  rw [Scan.finish, if_neg (by rw [active]; exact Bool.false_ne_true)]

/-- The tokens of a text when the lexer stops within a number of transitions. -/
def Scan.finishWithin (found : List Token) (scan : Scan) : Nat → Option Tokens
  | 0 => none
  | steps + 1 =>
    if scan.mode.isFinal then some ⟨found.reverse, scan.error?⟩
    else scan.next.finishWithin (scan.token?.toList ++ found) steps

theorem finish_of_finishWithin {steps : Nat} {found : List Token} {scan : Scan} {tokens : Tokens}
    (h : scan.finishWithin found steps = some tokens) : scan.finish found = tokens := by
  induction steps generalizing found scan with
  | zero => cases h
  | succ steps ih =>
    unfold Scan.finishWithin at h
    split at h
    · next final =>
      rw [finish_of_final final]
      exact Option.some.inj h
    · next active =>
      rw [finish_of_active (Bool.eq_false_iff.2 active)]
      exact ih h

theorem lex_of_finishWithin {text : String} {tokens : List Token} (steps : Nat)
    (h : (Scan.start text.toList).finishWithin [] steps = some ⟨tokens, none⟩) :
    lex text = .ok tokens := by
  have run : tokenize text = ⟨tokens, none⟩ := finish_of_finishWithin h
  simp only [lex, run]

/-- The token of a transition that starts at a place. -/
def tokenAt (position : Nat) (token : Option (TokenKind × String)) : List Token :=
  (token.map fun (kind, value) => ⟨kind, value, position⟩).toList

/-- A mode passes over a chunk of text in front of the rest. -/
def Passes (mode : Mode) (chunk rest : List Char) (next : Mode)
    (token : Option (TokenKind × String)) : Prop :=
  mode.transition (chunk ++ rest) = ⟨chunk.length, next, token⟩

/-- The lexer goes on behind a chunk that it passes over. -/
theorem finish_passes {mode next : Mode} {chunk rest : List Char}
    {token : Option (TokenKind × String)} (passes : Passes mode chunk rest next token)
    (active : mode.isFinal = false) (found : List Token) (position : Nat) :
    Scan.finish found ⟨mode, position, chunk ++ rest⟩ =
      Scan.finish (tokenAt position token ++ found) ⟨next, position + chunk.length, rest⟩ := by
  have moves : Scan.transition ⟨mode, position, chunk ++ rest⟩ = ⟨chunk.length, next, token⟩ :=
    passes
  rw [finish_of_active active]
  simp only [Scan.next, Scan.token?, moves, List.drop_left, tokenAt]

/-- A mode that passes over nothing gives way to another one. -/
theorem finish_yields {mode next : Mode} {text : List Char}
    (yields : Passes mode [] text next none) (active : mode.isFinal = false) (found : List Token)
    (position : Nat) :
    Scan.finish found ⟨mode, position, text⟩ = Scan.finish found ⟨next, position, text⟩ :=
  finish_passes yields active found position

/-! ## Spans -/

theorem run_span {p : Char → Bool} {span rest : List Char} (inside : ∀ c ∈ span, p c = true)
    (ends : Text.Ends p rest) : run p (span ++ rest) = span.length := by
  rw [run, Text.takeWhile_span inside ends]

theorem run_of_ends {p : Char → Bool} {rest : List Char} (ends : Text.Ends p rest) :
    run p rest = 0 := by
  exact congrArg List.length (Text.takeWhile_span Text.inside_nil ends)

/-- A name: a letter or an underscore, and the characters of an identifier behind it. -/
structure Identifier (name : List Char) : Prop where
  start : ∃ c rest, name = c :: rest ∧ isStart c = true
  symbols : ∀ c ∈ name, isSymbol c = true

/-- Whether a text is the end of a line: it is empty or starts with a line break. -/
def EndsLine (rest : List Char) : Prop := rest = [] ∨ ∃ lines, rest = '\n' :: lines

/-- The characters that start an identifier are neither white space nor marks. -/
theorem ne_of_isStart {c d : Char} (start : isStart c = true) (other : isStart d = false) :
    c ≠ d := by
  rintro rfl
  rw [start] at other
  cases other

theorem isSpace_of_isStart {c : Char} (start : isStart c = true) : isSpace c = false := by
  have other : ∀ d, isStart d = false → (c == d) = false := by
    intro d outside
    rw [beq_eq_false_iff_ne]
    exact ne_of_isStart start outside
  simp only [isSpace, isBlank, other ' ' rfl, other '\t' rfl, other '\r' rfl, other '\n' rfl,
    Bool.or_false]

theorem endsLine_ends {p : Char → Bool} {rest : List Char} (line : EndsLine rest)
    (outside : p '\n' = false) : Text.Ends p rest := by
  rcases line with rfl | ⟨lines, rfl⟩
  · exact Text.ends_nil
  · exact Text.ends_cons outside

theorem head?_ne_of_endsLine {c : Char} {rest : List Char} (line : EndsLine rest)
    (other : c ≠ '\n') : rest.head? ≠ some c := by
  rcases line with rfl | ⟨lines, rfl⟩
  · exact nofun
  · exact fun same => other (Option.some.inj same).symm

/-- The mode that follows a mnemonic and its blanks. -/
def behindMnemonic : List Char → Mode
  | [] => .done
  | c :: _ => if c = '\n' then .top else .argument

/-! ## Between items -/

/-- White space between items does not matter. -/
theorem finish_space {space : List Char} (white : ∀ c ∈ space, isSpace c = true) (text : List Char)
    (found : List Token) (position : Nat) :
    Scan.finish found ⟨.top, position, space ++ text⟩ =
      Scan.finish found ⟨.top, position + space.length, text⟩ := by
  have skipped : run isSpace (space ++ text) = space.length + run isSpace text := by
    unfold run
    rw [List.takeWhile_append_of_pos white, List.length_append]
  refine (finish_of_active rfl).trans (Eq.trans ?_ (finish_of_active rfl).symm)
  simp only [Scan.next, Scan.token?, Scan.transition, Mode.transition, top, skipped,
    List.drop_length_add_append, Nat.add_assoc]
  rfl

theorem finish_end (found : List Token) (position : Nat) :
    Scan.finish found ⟨.top, position, []⟩ = ⟨found.reverse, none⟩ := by
  have done : Passes .top [] [] .done none := rfl
  rw [finish_yields done rfl, finish_of_final rfl]
  rfl

section

variable {name rest : List Char} (identifier : Identifier name)
include identifier

theorem labelAhead_colon : labelAhead (name ++ ':' :: rest) = true := by
  obtain ⟨c, others, rfl, start⟩ := identifier.start
  have others_symbols : ∀ d ∈ others, isSymbol d = true :=
    fun d member => identifier.symbols d (List.mem_cons_of_mem _ member)
  have ends : Text.Ends isSymbol (':' :: rest) := Text.ends_cons rfl
  simp only [List.cons_append, labelAhead, start, Text.dropWhile_span others_symbols ends,
    List.head?_cons, Bool.true_and]
  rfl

theorem labelAhead_other (ends : Text.Ends isSymbol rest) (other : rest.head? ≠ some ':') :
    labelAhead (name ++ rest) = false := by
  obtain ⟨c, others, rfl, start⟩ := identifier.start
  have others_symbols : ∀ d ∈ others, isSymbol d = true :=
    fun d member => identifier.symbols d (List.mem_cons_of_mem _ member)
  simp only [List.cons_append, labelAhead, start, Text.dropWhile_span others_symbols ends,
    Bool.true_and]
  exact beq_false_of_ne other

theorem top_identifier :
    Passes .top [] (name ++ rest)
      (if labelAhead (name ++ rest) then .label else .instruction) none := by
  obtain ⟨c, others, rfl, start⟩ := identifier.start
  have visible : run isSpace (c :: others ++ rest) = 0 :=
    run_of_ends (Text.ends_cons (isSpace_of_isStart start))
  have semicolon : c ≠ ';' := ne_of_isStart start rfl
  simp only [Passes, Mode.transition, top, List.nil_append, visible, List.drop_zero]
  simp only [entry, List.cons_append, semicolon, start, if_false, if_true, List.length_nil]

theorem label_passes :
    Passes .label (name ++ [':']) rest .top (some (.label, String.ofList name)) := by
  have ends : Text.Ends isSymbol (':' :: rest) := Text.ends_cons rfl
  rw [Passes, List.append_assoc, List.singleton_append]
  simp only [Mode.transition, label, Text.takeWhile_span identifier.symbols ends, List.drop_left,
    List.head?_cons, if_true, List.length_append, List.length_singleton]

theorem name_ne_nil : name ≠ [] := by
  obtain ⟨c, others, rfl, -⟩ := identifier.start
  exact List.cons_ne_nil c others

/-- A mnemonic and the blanks behind it. -/
theorem instruction_passes {blanks : List Char} (white : ∀ c ∈ blanks, isBlank c = true)
    (ends : Text.Ends isSymbol (blanks ++ rest)) (visible : Text.Ends isBlank rest) :
    Passes .instruction (name ++ blanks) rest (behindMnemonic rest)
      (some (.instruction, String.ofList name)) := by
  rw [Passes, List.append_assoc]
  simp only [Mode.transition, instruction, Text.takeWhile_span identifier.symbols ends,
    name_ne_nil identifier, if_false, List.drop_left, run_span white visible, List.length_append]
  rw [← List.length_append, ← List.append_assoc, List.drop_left]
  rfl

theorem reference_passes (ends : Text.Ends isSymbol rest) :
    Passes .reference name rest .separator (some (.reference, String.ofList name)) := by
  simp only [Passes, Mode.transition, reference, Text.takeWhile_span identifier.symbols ends,
    name_ne_nil identifier, if_false]

theorem register_passes (ends : Text.Ends isSymbol rest) :
    Passes .register ('%' :: name) rest .separator (some (.register, String.ofList name)) := by
  obtain ⟨c, others, rfl, start⟩ := identifier.start
  have symbols := Text.takeWhile_span identifier.symbols ends
  simp only [Passes, Mode.transition, register, List.cons_append] at symbols ⊢
  simp only [symbols, List.head?_cons, Option.any_some, start, if_true, List.length_cons]

end

/-! ## Arguments -/

/-- The text of a number: digits with at most one sign in front. -/
structure Numeral (sign digits : List Char) : Prop where
  marked : sign = [] ∨ ∃ c, sign = [c] ∧ isSign c = true
  decimal : ∀ c ∈ digits, c.isDigit = true
  filled : digits ≠ []

theorem isSign_of_isDigit {c : Char} (digit : c.isDigit = true) : isSign c = false := by
  rw [Bool.eq_false_iff]
  intro sign
  simp only [isSign, Bool.or_eq_true, beq_iff_eq] at sign
  rcases sign with rfl | rfl <;> cases digit

theorem number_passes {sign digits rest : List Char} (numeral : Numeral sign digits)
    (ends : Text.Ends Char.isDigit rest) :
    Passes .number (sign ++ digits) rest .separator
      (some (.number, String.ofList (sign ++ digits))) := by
  have chosen : ((sign ++ digits ++ rest).take 1).filter isSign = sign := by
    rcases numeral.marked with rfl | ⟨c, rfl, mark⟩
    · obtain ⟨d, others, rfl⟩ := List.exists_cons_of_ne_nil numeral.filled
      have digit := isSign_of_isDigit (numeral.decimal d List.mem_cons_self)
      simp [digit]
    · simp [mark]
  have span := Text.takeWhile_span numeral.decimal ends
  simp only [Passes, Mode.transition, number, chosen]
  rw [List.append_assoc, List.drop_left, span]
  simp only [numeral.filled, if_false]

theorem argument_yields_number {c : Char} {rest : List Char}
    (numeric : c.isDigit = true ∨ isSign c = true) :
    Passes .argument [] (c :: rest) .number none := by
  have front : (c.isDigit || isSign c) = true := by
    rw [Bool.or_eq_true]
    exact numeric
  simp only [Passes, Mode.transition, argument, List.nil_append, front, if_true, List.length_nil]

/-- The codes of letters are greater than the codes of digits. -/
theorem isDigit_of_isStart {c : Char} (start : isStart c = true) : c.isDigit = false := by
  have above : '9'.toNat < c.toNat := by
    unfold isStart at start
    rcases Bool.or_eq_true_iff.1 start with letter | underscore
    · have ranges : (decide ('A'.val ≤ c.val ∧ c.val ≤ 'Z'.val) ||
          (decide ('a'.val ≤ c.val) && decide (c.val ≤ 'z'.val))) = true := letter
      simp only [Bool.or_eq_true, Bool.and_eq_true, decide_eq_true_eq, UInt32.le_iff_toNat_le]
        at ranges
      have capital : 'A'.val.toNat = 65 := rfl
      have small : 'a'.val.toNat = 97 := rfl
      show 57 < c.val.toNat
      omega
    · rw [beq_iff_eq.1 underscore]
      decide
  rw [Bool.eq_false_iff]
  intro digit
  have range := Char.isDigit_iff_toNat.1 digit
  omega

theorem argument_yields_reference {c : Char} {rest : List Char} (start : isStart c = true) :
    Passes .argument [] (c :: rest) .reference none := by
  have front : (c.isDigit || isSign c) = false := by
    rw [isDigit_of_isStart start, isSign, beq_false_of_ne (ne_of_isStart start rfl),
      beq_false_of_ne (ne_of_isStart start rfl)]
    rfl
  simp only [Passes, Mode.transition, argument, List.nil_append, front, start, if_true,
    Bool.false_eq_true, if_false, List.length_nil]

theorem argument_yields_register (rest : List Char) :
    Passes .argument [] ('%' :: rest) .register none := rfl

/-- At the end of a line there are no more arguments. -/
theorem finish_argument_line {rest : List Char} (line : EndsLine rest) (found : List Token)
    (position : Nat) :
    Scan.finish found ⟨.argument, position, rest⟩ = Scan.finish found ⟨.top, position, rest⟩ := by
  rcases line with rfl | ⟨lines, rfl⟩
  · have yields : Passes .argument [] [] .top none := rfl
    exact finish_yields yields rfl found position
  · have white : ∀ c ∈ ('\n' :: lines).takeWhile isSpace, isSpace c = true :=
      List.all_eq_true.1 List.all_takeWhile
    have split := List.takeWhile_append_dropWhile (p := isSpace) (l := '\n' :: lines)
    have passes : Passes .argument (('\n' :: lines).takeWhile isSpace)
        (('\n' :: lines).dropWhile isSpace) .top none := by
      rw [Passes, split]
      rfl
    rw [← split, finish_passes passes rfl, finish_space white]
    rfl

/-- Behind a mnemonic the lexer is ready for an argument. -/
theorem finish_instruction {name blanks rest : List Char} (identifier : Identifier name)
    (white : ∀ c ∈ blanks, isBlank c = true) (ends : Text.Ends isSymbol (blanks ++ rest))
    (visible : Text.Ends isBlank rest) (found : List Token) (position : Nat) :
    Scan.finish found ⟨.instruction, position, (name ++ blanks) ++ rest⟩ =
      Scan.finish (⟨.instruction, String.ofList name, position⟩ :: found)
        ⟨.argument, position + (name ++ blanks).length, rest⟩ := by
  rw [finish_passes (instruction_passes identifier white ends visible) rfl]
  cases rest with
  | nil =>
    rw [finish_argument_line (.inl rfl), finish_end]
    exact finish_of_final rfl
  | cons c rest =>
    by_cases line : c = '\n'
    · rw [line, finish_argument_line (.inr ⟨rest, rfl⟩)]
      rfl
    · rw [behindMnemonic, if_neg line]
      rfl

/-! ## Behind arguments -/

theorem separator_passes {blanks rest : List Char} (white : ∀ c ∈ blanks, isBlank c = true)
    (visible : Text.Ends isBlank rest) (other : rest.head? ≠ some ',') :
    Passes .separator blanks rest .argument none := by
  simp only [Passes, Mode.transition, separator, run_span white visible, List.drop_left, other,
    if_false, Nat.add_zero, run_of_ends visible]

theorem separator_passes_comma {before after rest : List Char}
    (white : ∀ c ∈ before, isBlank c = true) (others : ∀ c ∈ after, isBlank c = true)
    (visible : Text.Ends isBlank rest) :
    Passes .separator (before ++ ',' :: after) rest .argument none := by
  have comma : Text.Ends isBlank (',' :: (after ++ rest)) := Text.ends_cons rfl
  rw [Passes, List.append_assoc, List.cons_append]
  simp only [Mode.transition, separator, run_span white comma, List.drop_left, List.head?_cons,
    if_true, List.drop_length_add_append, List.drop_succ_cons, List.drop_zero,
    run_span others visible, List.length_append, List.length_cons]
  rw [Nat.add_assoc, Nat.add_comm 1]

end TickMachine.Lexer
