import TickMachine.Proofs.Source.Coverage

/-! # Texts that can be taken apart

A text that is taken apart to its end into blanks, line ends, comments, commas and lexemes is read
by the lexer without a fault, and its tokens are those of the lexemes. Since the lexer takes every
text apart, the texts that it accepts are those that can be taken apart to their end, and there is
one way to do it (`lex_eq_ok_iff`). -/

namespace TickMachine.Lexer

open Charset

/-! ## Courses to the end of a text -/

/-- The course of the lexer from a zone to the end of a text. Behind a mnemonic and behind a comma
the lexer has passed over the blanks. -/
def CourseFrom (zone : Zone) (position : Nat) (text : List Char) (tokens : List Token) : Prop :=
  match zone with
  | .item => Course .top position text [] .top tokens
  | .separator => Course .separator position text [] .top tokens
  | .arguments => ∀ blanks rest, text = blanks ++ rest → (∀ c ∈ blanks, isBlank c = true) →
      Text.Ends isBlank rest → Course .argument (position + blanks.length) rest [] .top tokens

section

variable {mode next : Mode} {zone : Zone} {position : Nat} {chunk text rest : List Char}
  {token : Option (TokenKind × String)} {tokens : List Token}

theorem Course.of_move (move : Move mode chunk rest next token)
    (others : Course next (position + chunk.length) rest [] .top tokens) :
    Course mode position (chunk ++ rest) [] .top (tokenAt position token ++ tokens) := by
  rw [← List.append_nil rest] at move
  exact .move move others

/-- A blank in front of a separator belongs to it. -/
theorem course_separator_blank {c : Char} (blank : isBlank c = true)
    (course : Course .separator (position + 1) text [] .top tokens) :
    Course .separator position (c :: text) [] .top tokens := by
  cases course with
  | @move _ _ _ _ chunk front _ _ _ move others =>
    have place : position + 1 + chunk.length = position + (c :: chunk).length := by
      rw [Nat.add_assoc, Nat.add_comm 1]
      rfl
    rw [List.append_nil] at move
    rw [place] at others
    cases move with
    | blanks white visible other =>
      have white' : ∀ d ∈ c :: chunk, isBlank d = true := List.forall_mem_cons.2 ⟨blank, white⟩
      exact Course.of_move (.blanks white' visible other) others
    | @comma before after _ white others' visible =>
      have white' : ∀ d ∈ c :: before, isBlank d = true := List.forall_mem_cons.2 ⟨blank, white⟩
      exact Course.of_move (.comma white' others' visible) others

/-- What begins no argument is read as it is read between items. -/
theorem CourseFrom.of_item (course : CourseFrom .item position text tokens)
    (ends : Text.Ends opens text) (visible : Text.Ends isBlank text)
    (other : text.head? ≠ some ',') : CourseFrom zone position text tokens := by
  have leaves : Course .argument position text [] .top tokens := Course.of_move (.leave ends) course
  cases zone with
  | item => exact course
  | separator => exact Course.of_move (.blanks Text.inside_nil visible other) leaves
  | arguments =>
    intro blanks rest split white _
    cases blanks with
    | nil =>
      rw [split] at leaves
      exact leaves
    | cons c blanks =>
      rw [split] at visible
      have outside := visible c rfl
      rw [white c List.mem_cons_self] at outside
      cases outside

/-! ## Lexemes -/

theorem ne_of_opens {c d : Char} (opened : opens c = true) (other : opens d = false) : c ≠ d := by
  rintro rfl
  rw [opened] at other
  cases other

/-- Arguments start with a character that begins an argument. -/
theorem spelled_opens {kind : TokenKind} {value : String} {lexeme : List Char}
    (spelled : Spelled kind value lexeme) : ∃ c others, lexeme = c :: others ∧ opens c = true := by
  cases spelled with
  | number numeral =>
    obtain ⟨c, others, parts, numeric⟩ := numeral_start numeral
    refine ⟨c, others, parts, ?_⟩
    rcases numeric with digit | sign
    · simp [opens, digit]
    · simp [opens, sign]
  | reference identifier =>
    obtain ⟨c, others, rfl, start⟩ := identifier.start
    exact ⟨c, others, rfl, by simp [opens, start]⟩
  | @register name => exact ⟨'%', name, rfl, rfl⟩
  | @string body value => exact ⟨'"', body ++ ['"'], rfl, rfl⟩

/-- No colon stands behind a mnemonic, since it could not be read there. -/
theorem head?_ne_colon (covers : Covers .arguments position text tokens none) :
    text.head? ≠ some ':' := by
  intro head
  cases covers with
  | blank blank =>
    obtain rfl := Option.some.inj head
    cases blank
  | line | comment => cases head
  | argument inside spelled =>
    obtain ⟨c, others, rfl, opened⟩ := spelled_opens spelled
    exact ne_of_opens opened rfl (Option.some.inj head)
  | done => cases head

theorem courseFrom_mnemonic {name : List Char} (identifier : Identifier name)
    (ends : Text.Ends isSymbol rest)
    (covers : Covers .arguments (position + name.length) rest tokens none)
    (course : CourseFrom .arguments (position + name.length) rest tokens) :
    CourseFrom .item position (name ++ rest)
      (⟨.instruction, String.ofList name, position⟩ :: tokens) := by
  have colon := head?_ne_colon covers
  obtain ⟨blanks, behind, rfl, white, visible⟩ := Text.exists_span isBlank rest
  have others := course blanks behind rfl white visible
  rw [Nat.add_assoc, ← List.length_append] at others
  rw [← List.append_assoc]
  exact Course.of_move (.mnemonic identifier white ends colon visible) others

theorem courseFrom_argument {kind : TokenKind} {value : String} {lexeme : List Char}
    (inside : zone ≠ .item) (spelled : Spelled kind value lexeme)
    (ends : Text.Ends (continues kind) rest)
    (course : CourseFrom .separator (position + lexeme.length) rest tokens) :
    CourseFrom zone position (lexeme ++ rest) (⟨kind, value, position⟩ :: tokens) := by
  have reads : Course .argument position (lexeme ++ rest) [] .top
      (⟨kind, value, position⟩ :: tokens) := Course.of_move (.argument spelled ends) course
  obtain ⟨c, others, rfl, opened⟩ := spelled_opens spelled
  have visible : isBlank c = false := by
    obtain ⟨d, _, same, visible, -⟩ := spelled_start spelled
    rwa [(List.cons.inj same).1]
  cases zone with
  | item => exact absurd rfl inside
  | separator =>
    refine Course.of_move (.blanks Text.inside_nil (Text.ends_cons visible) ?_) reads
    exact fun head => ne_of_opens opened rfl (Option.some.inj head)
  | arguments =>
    intro blanks behind split white _
    cases blanks with
    | nil =>
      rw [split] at reads
      exact reads
    | cons d blanks =>
      rw [(List.cons.inj split).1, white d List.mem_cons_self] at visible
      cases visible

end

/-! ## What is taken apart is read -/

/-- The lexer reads a text that is taken apart to its end. -/
theorem courseFrom_of_covers {zone : Zone} {position : Nat} {text : List Char}
    {tokens : List Token} {error : Option LexError}
    (covers : Covers zone position text tokens error) (accepted : error = none) :
    CourseFrom zone position text tokens := by
  induction covers with
  | @blank zone position c rest _ _ blank _ ih =>
    have course := ih accepted
    cases zone with
    | item =>
      have space : isSpace c = true := by rw [isSpace, blank, Bool.true_or]
      have move : Move .top [c] rest .top none := .space space
      exact Course.of_move move course
    | separator => exact course_separator_blank blank course
    | arguments =>
      intro blanks behind split white visible
      cases blanks with
      | nil =>
        rw [List.nil_append] at split
        rw [← split] at visible
        rw [visible c rfl] at blank
        cases blank
      | cons d blanks =>
        have white' := fun e member => white e (List.mem_cons_of_mem _ member)
        have others := course blanks behind (List.cons.inj split).2 white' visible
        rwa [Nat.add_assoc, Nat.add_comm 1] at others
  | @line zone position rest _ _ _ ih =>
    have move : Move .top ['\n'] rest .top none := .space rfl
    have course : CourseFrom .item position ('\n' :: rest) _ := Course.of_move move (ih accepted)
    exact course.of_item (Text.ends_cons rfl) (Text.ends_cons rfl) (by simp)
  | @comment zone position text rest _ _ inside ends _ ih =>
    have course : CourseFrom .item position (';' :: text ++ rest) _ :=
      Course.of_move (.comment inside ends) (ih accepted)
    exact course.of_item (Text.ends_cons rfl) (Text.ends_cons rfl) (by simp)
  | @comma position rest _ _ _ ih =>
    obtain ⟨blanks, behind, rfl, white, visible⟩ := Text.exists_span isBlank rest
    have others := ih accepted blanks behind rfl white visible
    rw [Nat.add_assoc, Nat.add_comm 1] at others
    have move : Move .separator (',' :: blanks) behind .argument none :=
      .comma Text.inside_nil white visible
    exact Course.of_move move others
  | label identifier _ ih => exact Course.of_move (.label identifier) (ih accepted)
  | mnemonic identifier ends others ih =>
    subst accepted
    exact courseFrom_mnemonic identifier ends others (ih rfl)
  | argument inside spelled ends _ ih => exact courseFrom_argument inside spelled ends (ih accepted)
  | @done zone position =>
    have course : CourseFrom .item position [] [] := .stay
    exact course.of_item Text.ends_nil Text.ends_nil (Option.some_ne_none _).symm
  | failed => cases accepted

/-- The lexer accepts the texts that can be taken apart to their end. -/
theorem lex_eq_ok_iff {text : String} {tokens : List Token} :
    lex text = .ok tokens ↔ Covers .item 0 text.toList tokens none := by
  constructor
  · intro lexed
    have covers := covers_tokenize text
    rwa [(course_of_lex lexed).1] at covers
  · intro covers
    exact lex_of_course (courseFrom_of_covers covers rfl)

end TickMachine.Lexer
