import TickMachine.Proofs.Source.Rendering

/-! # Moves of the lexer

Between lexemes the lexer stands in front of an item, in front of a possible argument or behind an
argument. From there it moves over a chunk of text, or it stops at the end of the text or at a fault.
A move depends on what stands behind its chunk by the next character only, and a line break or the
end of the text may take the place of that character. -/

namespace TickMachine.Lexer

open Charset

/-! ## Names and comments -/

theorem isSymbol_of_isStart {c : Char} (start : isStart c = true) : isSymbol c = true := by
  unfold isStart at start
  unfold isSymbol Char.isAlphanum
  rcases Bool.or_eq_true_iff.1 start with letter | underscore
  · rw [letter]
    rfl
  · rw [underscore, Bool.or_true]

/-- An item begins with a name. -/
theorem exists_name {c : Char} (start : isStart c = true) (text : List Char) :
    ∃ name rest, c :: text = name ++ rest ∧ Identifier name ∧ Text.Ends isSymbol rest := by
  obtain ⟨span, rest, rfl, inside, ends⟩ := Text.exists_span isSymbol text
  refine ⟨c :: span, rest, rfl, ⟨⟨c, span, rfl, start⟩, ?_⟩, ends⟩
  intro d member
  rcases List.mem_cons.1 member with rfl | member
  · exact isSymbol_of_isStart start
  · exact inside d member

theorem comment_passes {text rest : List Char} (inside : ∀ c ∈ text, c ≠ '\n')
    (ends : EndsLine rest) : Passes .comment (';' :: text) rest .top none := by
  have others : ∀ c ∈ ';' :: text, (c != '\n') = true := by
    intro c member
    rcases List.mem_cons.1 member with rfl | member
    · rfl
    · exact bne_iff_ne.2 (inside c member)
  have passed : run (· != '\n') (';' :: text ++ rest) = (';' :: text).length :=
    run_span others (endsLine_ends ends rfl)
  simp only [Passes, Mode.transition, comment, passed]
  rfl

/-! ## Moves -/

/-- The characters with which an argument begins. -/
def opens (c : Char) : Bool := c.isDigit || isSign c || isStart c || c == '%' || c == '"'

/-- A move of the lexer over a chunk of text in front of the rest, with the token found on it. -/
inductive Move : Mode → List Char → List Char → Mode → Option (TokenKind × String) → Prop
  | space {c : Char} {rest : List Char} (space : isSpace c = true) : Move .top [c] rest .top none
  | comment {text rest : List Char} (inside : ∀ c ∈ text, c ≠ '\n') (ends : EndsLine rest) :
    Move .top (';' :: text) rest .top none
  | label {name rest : List Char} (identifier : Identifier name) :
    Move .top (name ++ [':']) rest .top (some (.label, String.ofList name))
  | mnemonic {name blanks rest : List Char} (identifier : Identifier name)
    (white : ∀ c ∈ blanks, isBlank c = true) (ends : Text.Ends isSymbol (blanks ++ rest))
    (other : (blanks ++ rest).head? ≠ some ':') (visible : Text.Ends isBlank rest) :
    Move .top (name ++ blanks) rest .argument (some (.instruction, String.ofList name))
  | argument {kind : TokenKind} {value : String} {lexeme rest : List Char}
    (spelled : Spelled kind value lexeme) (ends : Text.Ends (continues kind) rest) :
    Move .argument lexeme rest .separator (some (kind, value))
  | leave {rest : List Char} (ends : Text.Ends opens rest) : Move .argument [] rest .top none
  | blanks {blanks rest : List Char} (white : ∀ c ∈ blanks, isBlank c = true)
    (visible : Text.Ends isBlank rest) (other : rest.head? ≠ some ',') :
    Move .separator blanks rest .argument none
  | comma {before after rest : List Char} (white : ∀ c ∈ before, isBlank c = true)
    (others : ∀ c ∈ after, isBlank c = true) (visible : Text.Ends isBlank rest) :
    Move .separator (before ++ ',' :: after) rest .argument none

/-! ## Texts in the place of others -/

/-- A text that may stand where another one does: it starts with the same character or with a line
break, or is empty. -/
def Replaces (rest other : List Char) : Prop := ∀ c ∈ rest.head?, c ∈ other.head? ∨ c = '\n'

theorem Replaces.of_head? {rest other : List Char} (same : rest.head? = other.head?) :
    Replaces rest other := by
  intro c head
  rw [same] at head
  exact .inl head

theorem Replaces.append {rest other : List Char} (replaces : Replaces rest other)
    (front : List Char) : Replaces (front ++ rest) (front ++ other) := by
  cases front with
  | nil => exact replaces
  | cons c front => exact .of_head? rfl

theorem replaces_nil (other : List Char) : Replaces [] other := by
  intro c head
  cases head

theorem Replaces.ends {p : Char → Bool} {rest other : List Char} (replaces : Replaces rest other)
    (outside : p '\n' = false) (ends : Text.Ends p other) : Text.Ends p rest := by
  intro c head
  rcases replaces c head with same | rfl
  · exact ends c same
  · exact outside

theorem Replaces.head?_ne {d : Char} {rest other : List Char} (replaces : Replaces rest other)
    (outside : d ≠ '\n') (ne : other.head? ≠ some d) : rest.head? ≠ some d := by
  intro head
  rcases replaces d head with same | line
  · exact ne same
  · exact outside line

theorem Replaces.endsLine {rest other : List Char} (replaces : Replaces rest other)
    (ends : EndsLine other) : EndsLine rest := by
  cases rest with
  | nil => exact .inl rfl
  | cons c rest =>
    refine .inr ⟨rest, ?_⟩
    rcases replaces c rfl with same | rfl
    · rcases ends with rfl | ⟨lines, rfl⟩
      · cases same
      · cases same
        rfl
    · rfl

section

variable {mode next : Mode} {chunk rest : List Char} {token : Option (TokenKind × String)}

/-- A move is the same in front of every text that may stand behind its chunk. -/
theorem Move.replace {other : List Char} (move : Move mode chunk rest next token)
    (replaces : Replaces other rest) : Move mode chunk other next token := by
  cases move with
  | space space => exact .space space
  | comment inside ends => exact .comment inside (replaces.endsLine ends)
  | label identifier => exact .label identifier
  | mnemonic identifier white ends colon visible =>
    exact .mnemonic identifier white ((replaces.append _).ends rfl ends)
      ((replaces.append _).head?_ne (by decide) colon) (replaces.ends rfl visible)
  | @argument kind _ _ _ spelled ends =>
    refine .argument spelled (replaces.ends ?_ ends)
    cases kind <;> rfl
  | leave ends => exact .leave (replaces.ends rfl ends)
  | blanks white visible comma =>
    exact .blanks white (replaces.ends rfl visible) (replaces.head?_ne (by decide) comma)
  | comma white others visible => exact .comma white others (replaces.ends rfl visible)

/-! ## The lexer makes the moves -/

/-- Where no argument begins, the lexer looks for an item. -/
theorem finish_leave {text : List Char} (ends : Text.Ends opens text) (found : List Token)
    (position : Nat) :
    Scan.finish found ⟨.argument, position, text⟩ = Scan.finish found ⟨.top, position, text⟩ := by
  cases text with
  | nil => exact finish_argument_line (.inl rfl) found position
  | cons c rest =>
    have outside := ends c rfl
    simp only [opens, Bool.or_eq_false_iff, beq_eq_false_iff_ne] at outside
    obtain ⟨⟨⟨numeric, start⟩, mark⟩, quote⟩ := outside
    obtain ⟨space, behind, split, white, visible⟩ := Text.exists_span isSpace (c :: rest)
    have passes : Passes .argument space behind .top none := by
      have passed := run_span white visible
      rw [← split] at passed
      rw [Passes, ← split]
      simp only [Mode.transition, argument, passed, numeric.1, numeric.2, start, mark, quote,
        Bool.or_false, Bool.false_eq_true, if_false]
    rw [split, finish_passes passes rfl, finish_space white]
    rfl

theorem finish_move (move : Move mode chunk rest next token) (found : List Token)
    (position : Nat) :
    Scan.finish found ⟨mode, position, chunk ++ rest⟩ =
      Scan.finish (tokenAt position token ++ found) ⟨next, position + chunk.length, rest⟩ := by
  cases move with
  | @space c _ space =>
    have white : ∀ d ∈ [c], isSpace d = true := by
      intro d member
      rwa [List.mem_singleton.1 member]
    exact finish_space white rest found position
  | @comment text _ inside ends =>
    have yields : Passes .top [] (';' :: text ++ rest) .comment none := rfl
    exact (finish_yields yields rfl found position).trans
      (finish_passes (comment_passes inside ends) rfl found position)
  | label identifier =>
    rw [List.append_assoc]
    exact finish_label identifier found position
  | mnemonic identifier white ends other visible =>
    rw [List.append_assoc, finish_mnemonic identifier ends other, ← List.append_assoc]
    exact finish_instruction identifier white ends visible found position
  | argument spelled ends => exact finish_spelled spelled ends found position
  | leave ends => exact finish_leave ends found position
  | blanks white visible other =>
    exact finish_passes (separator_passes white visible other) rfl found position
  | comma white others visible =>
    exact finish_passes (separator_passes_comma white others visible) rfl found position

/-! ## Stops -/

/-- The mode in which a fault is found. -/
def foundIn : LexFault → Mode
  | .unexpectedSymbol => .top
  | _ => .argument

/-- The texts at which the lexer stops: what it has read of them when it finds the fault, and the
text that starts with the character at fault. -/
inductive Faulty : LexFault → List Char → List Char → Prop
  | symbol {c : Char} {rest : List Char} (visible : isSpace c = false) (comment : c ≠ ';')
    (start : isStart c = false) : Faulty .unexpectedSymbol [] (c :: rest)
  | number {c : Char} {rest : List Char} (sign : isSign c = true)
    (ends : Text.Ends Char.isDigit rest) : Faulty .number [c] rest
  | register {rest : List Char} (ends : Text.Ends isStart rest) : Faulty .registerName ['%'] rest
  | unterminated {body value : List Char} (unescapes : Literal.Unescapes body value) :
    Faulty .unterminatedString ('"' :: body) []
  | escape {body value rest : List Char} (unescapes : Literal.Unescapes body value)
    (unknown : ∀ c ∈ rest.head?, Literal.unescape? c = none) :
    Faulty .escape ('"' :: (body ++ ['\\'])) rest

/-- The places at which the lexer stops: the end of the text, and the faults. -/
inductive Stop : Mode → List Char → Prop
  | ended : Stop .top []
  | faulty {fault : LexFault} {begun rest : List Char} (faulty : Faulty fault begun rest) :
    Stop (foundIn fault) (begun ++ rest)

/-- The lexer stops at a fault. -/
theorem finish_faulty {fault : LexFault} {begun : List Char} (faulty : Faulty fault begun rest)
    (found : List Token) (position : Nat) :
    Scan.finish found ⟨foundIn fault, position, begun ++ rest⟩ =
      ⟨found.reverse, some ⟨fault, rest.head?, position + begun.length⟩⟩ := by
  -- the mode that reads the lexeme passes over what has begun and fails
  have fails (reader : Mode) (active : reader.isFinal = false)
      (yields : Passes (foundIn fault) [] (begun ++ rest) reader none)
      (stops : Passes reader begun rest (.failed fault) none) :
      Scan.finish found ⟨foundIn fault, position, begun ++ rest⟩ =
        ⟨found.reverse, some ⟨fault, rest.head?, position + begun.length⟩⟩ := by
    have active' : (foundIn fault).isFinal = false := by cases fault <;> rfl
    rw [finish_yields yields active', finish_passes stops active, finish_of_final rfl]
    rfl
  cases faulty with
  | @symbol c rest visible comment start =>
    have skipped : run isSpace (c :: rest) = 0 := run_of_ends (Text.ends_cons visible)
    have yields : Passes .top [] (c :: rest) (.failed .unexpectedSymbol) none := by
      simp only [Passes, Mode.transition, top, List.nil_append, skipped, List.drop_zero, entry,
        comment, start, Bool.false_eq_true, if_false, List.length_nil]
    show Scan.finish found ⟨.top, position, c :: rest⟩ = _
    rw [finish_yields yields rfl, finish_of_final rfl]
    rfl
  | @number c _ sign ends =>
    refine fails .number rfl (argument_yields_number (.inr sign)) ?_
    have digits := Text.takeWhile_span Text.inside_nil ends
    rw [List.nil_append] at digits
    simp [Passes, Mode.transition, number, sign, digits]
  | register ends =>
    refine fails .register rfl (argument_yields_register rest) ?_
    cases rest with
    | nil => rfl
    | cons c rest => simp [Passes, Mode.transition, register, ends c rfl]
  | unterminated unescapes =>
    have scanned := Literal.scan_unterminated unescapes 1
    refine fails .string rfl rfl ?_
    simp only [Passes, Mode.transition, string, List.append_nil, scanned, List.length_cons]
    rw [Nat.add_comm 1]
  | @escape body _ _ unescapes unknown =>
    have scanned := Literal.scan_escape unescapes unknown 1
    have chunks : '"' :: (body ++ ['\\']) ++ rest = '"' :: (body ++ '\\' :: rest) := by simp
    refine fails .string rfl rfl ?_
    rw [Passes, chunks]
    simp only [Mode.transition, string, scanned, List.length_cons, List.length_append,
      List.length_nil]
    rw [Nat.add_right_comm 1, Nat.add_comm _ body.length]

/-- A fault shows at the next character, whatever stands behind that. -/
theorem Faulty.of_head? {fault : LexFault} {begun other : List Char}
    (faulty : Faulty fault begun rest) (same : other.head? = rest.head?) :
    Faulty fault begun other := by
  cases faulty with
  | symbol visible comment start =>
    obtain ⟨behind, rfl⟩ := List.head?_eq_some_iff.1 same
    exact .symbol visible comment start
  | number sign ends =>
    exact .number sign fun c head => ends c (same ▸ head)
  | register ends => exact .register fun c head => ends c (same ▸ head)
  | unterminated unescapes =>
    obtain rfl := List.head?_eq_none_iff.1 same
    exact .unterminated unescapes
  | escape unescapes unknown => exact .escape unescapes fun c head => unknown c (same ▸ head)

end

/-! ## A move or a stop -/

/-- The modes in which the lexer stands between lexemes. -/
def Station (mode : Mode) : Prop := mode = .top ∨ mode = .argument ∨ mode = .separator

/-- A move leads to a place between lexemes, over some text or to a mode of lower rank. -/
theorem Move.progress {mode next : Mode} {chunk rest : List Char}
    {token : Option (TokenKind × String)} (move : Move mode chunk rest next token) :
    Station next ∧ (0 < chunk.length ∨ next.rank < mode.rank) := by
  cases move with
  | space | comment => exact ⟨.inl rfl, .inl (Nat.succ_pos _)⟩
  | label => exact ⟨.inl rfl, .inl (by simp)⟩
  | mnemonic identifier =>
    have filled := List.length_pos_iff.2 (name_ne_nil identifier)
    refine ⟨.inr (.inl rfl), .inl ?_⟩
    rw [List.length_append]
    exact Nat.add_pos_left filled _
  | argument spelled =>
    obtain ⟨c, behind, rfl, -⟩ := spelled_start spelled
    exact ⟨.inr (.inr rfl), .inl (Nat.succ_pos _)⟩
  | leave => exact ⟨.inl rfl, .inr (by decide)⟩
  | blanks | comma => exact ⟨.inr (.inl rfl), .inr (by decide)⟩

/-- In front of a text the lexer moves or stops. -/
def MovesOrStops (mode : Mode) (text : List Char) : Prop :=
  Stop mode text ∨ ∃ chunk rest next token, text = chunk ++ rest ∧ Move mode chunk rest next token

section

variable {mode : Mode}

theorem movesOrStops_move {chunk rest : List Char} {next : Mode}
    {token : Option (TokenKind × String)} (move : Move mode chunk rest next token) :
    MovesOrStops mode (chunk ++ rest) :=
  .inr ⟨chunk, rest, next, token, rfl, move⟩

theorem movesOrStops_symbol {c : Char} {rest : List Char} (visible : isSpace c = false)
    (start : isStart c = false) : MovesOrStops .top (c :: rest) := by
  by_cases comment : c = ';'
  · obtain ⟨text, behind, rfl, inside, ends⟩ := Text.exists_span (· != '\n') rest
    subst comment
    have line : EndsLine behind := by
      cases behind with
      | nil => exact .inl rfl
      | cons d behind => exact .inr ⟨behind, by rw [bne_eq_false_iff_eq.1 (ends d rfl)]⟩
    exact movesOrStops_move (.comment (fun c member => bne_iff_ne.1 (inside c member)) line)
  · exact .inl (.faulty (.symbol visible comment start))

theorem movesOrStops_item {c : Char} {rest : List Char} (start : isStart c = true) :
    MovesOrStops .top (c :: rest) := by
  obtain ⟨name, behind, split, identifier, ends⟩ := exists_name start rest
  rw [split]
  by_cases colon : behind.head? = some ':'
  · obtain ⟨behind, rfl⟩ := List.head?_eq_some_iff.1 colon
    rw [← List.singleton_append, ← List.append_assoc]
    exact movesOrStops_move (.label identifier)
  · obtain ⟨blanks, behind, rfl, white, visible⟩ := Text.exists_span isBlank behind
    rw [← List.append_assoc]
    exact movesOrStops_move (.mnemonic identifier white ends colon visible)

theorem movesOrStops_top (text : List Char) : MovesOrStops .top text := by
  cases text with
  | nil => exact .inl .ended
  | cons c rest =>
    by_cases space : isSpace c = true
    · exact movesOrStops_move (.space space)
    by_cases start : isStart c = true
    · exact movesOrStops_item start
    · exact movesOrStops_symbol (Bool.eq_false_iff.2 space) (Bool.eq_false_iff.2 start)

theorem movesOrStops_digits {c : Char} {rest : List Char} (digit : c.isDigit = true) :
    MovesOrStops .argument (c :: rest) := by
  obtain ⟨digits, behind, rfl, decimal, ends⟩ := Text.exists_span Char.isDigit rest
  have numeral : Numeral [] (c :: digits) := by
    refine ⟨.inl rfl, ?_, List.cons_ne_nil _ _⟩
    intro d member
    rcases List.mem_cons.1 member with rfl | member
    · exact digit
    · exact decimal d member
  exact movesOrStops_move (.argument (.number numeral) ends)

theorem movesOrStops_signed {c : Char} {rest : List Char} (sign : isSign c = true) :
    MovesOrStops .argument (c :: rest) := by
  obtain ⟨digits, behind, rfl, decimal, ends⟩ := Text.exists_span Char.isDigit rest
  by_cases filled : digits = []
  · subst filled
    exact .inl (.faulty (.number sign ends))
  · exact movesOrStops_move (.argument (.number ⟨.inr ⟨c, rfl, sign⟩, decimal, filled⟩) ends)

theorem movesOrStops_register (rest : List Char) : MovesOrStops .argument ('%' :: rest) := by
  cases rest with
  | nil => exact .inl (.faulty (.register Text.ends_nil))
  | cons c rest =>
    by_cases start : isStart c = true
    · obtain ⟨name, behind, split, identifier, ends⟩ := exists_name start rest
      rw [split]
      exact movesOrStops_move (.argument (.register identifier) ends)
    · exact .inl (.faulty (.register (Text.ends_cons (Bool.eq_false_iff.2 start))))

theorem movesOrStops_string (rest : List Char) : MovesOrStops .argument ('"' :: rest) := by
  obtain ⟨body, value, behind, rfl, unescapes, stops⟩ := Literal.exists_unescapes rest
  cases stops with
  | ended =>
    have stop : Stop _ ('"' :: body ++ []) := .faulty (.unterminated unescapes)
    exact .inl stop
  | closed behind =>
    have chunks : '"' :: (body ++ '"' :: behind) = '"' :: (body ++ ['"']) ++ behind := by simp
    rw [chunks]
    exact movesOrStops_move (.argument (.string unescapes) fun _ _ => rfl)
  | @unknown behind unknown =>
    have chunks : '"' :: (body ++ '\\' :: behind) = '"' :: (body ++ ['\\']) ++ behind := by simp
    rw [chunks]
    exact .inl (.faulty (.escape unescapes unknown))

theorem movesOrStops_argument (text : List Char) : MovesOrStops .argument text := by
  cases text with
  | nil =>
    have move : Move .argument [] [] .top none := .leave Text.ends_nil
    exact movesOrStops_move move
  | cons c rest =>
    by_cases digit : c.isDigit = true
    · exact movesOrStops_digits digit
    by_cases sign : isSign c = true
    · exact movesOrStops_signed sign
    by_cases start : isStart c = true
    · obtain ⟨name, behind, split, identifier, ends⟩ := exists_name start rest
      rw [split]
      exact movesOrStops_move (.argument (.reference identifier) ends)
    by_cases mark : c = '%'
    · subst mark
      exact movesOrStops_register rest
    by_cases quote : c = '"'
    · subst quote
      exact movesOrStops_string rest
    · have outside : opens c = false := by simp [opens, digit, sign, start, mark, quote]
      have move : Move .argument [] (c :: rest) .top none := .leave (Text.ends_cons outside)
      exact movesOrStops_move move

theorem movesOrStops_separator (text : List Char) : MovesOrStops .separator text := by
  obtain ⟨before, rest, rfl, white, visible⟩ := Text.exists_span isBlank text
  by_cases comma : rest.head? = some ','
  · obtain ⟨behind, rfl⟩ := List.head?_eq_some_iff.1 comma
    obtain ⟨after, rest, rfl, others, visible⟩ := Text.exists_span isBlank behind
    rw [← List.cons_append, ← List.append_assoc]
    exact movesOrStops_move (.comma white others visible)
  · exact movesOrStops_move (.blanks white visible comma)

theorem movesOrStops (station : Station mode) (text : List Char) : MovesOrStops mode text := by
  rcases station with rfl | rfl | rfl
  · exact movesOrStops_top text
  · exact movesOrStops_argument text
  · exact movesOrStops_separator text

end

end TickMachine.Lexer
