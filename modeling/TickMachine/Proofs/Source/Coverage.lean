import TickMachine.Proofs.Source.Course

/-! # The text between and under the tokens

Every character of a text is accounted for: it belongs to the lexeme of a token, to the space
between lexemes, or, where the lexer stops early, to what it has not read to the end. -/

namespace TickMachine.Lexer

open Charset

/-! ## Texts and what is found in them -/

/-- Where in a line a text starts. -/
inductive Zone
  /-- Where an item may begin. -/
  | item
  /-- Behind a mnemonic, or behind the comma that follows an argument. -/
  | arguments
  /-- Behind an argument, where a comma may follow. -/
  | separator
  deriving DecidableEq

/-- The tokens and the error of a text that starts at a place: the text is taken apart into blanks,
line ends, comments, commas and lexemes, up to its end or to a fault. -/
inductive Covers : Zone → Nat → List Char → List Token → Option LexError → Prop
  | blank {zone : Zone} {position : Nat} {c : Char} {rest : List Char} {tokens : List Token}
    {error : Option LexError} (blank : isBlank c = true)
    (others : Covers zone (position + 1) rest tokens error) :
    Covers zone position (c :: rest) tokens error
  | line {zone : Zone} {position : Nat} {rest : List Char} {tokens : List Token}
    {error : Option LexError} (others : Covers .item (position + 1) rest tokens error) :
    Covers zone position ('\n' :: rest) tokens error
  | comment {zone : Zone} {position : Nat} {text rest : List Char} {tokens : List Token}
    {error : Option LexError} (inside : ∀ c ∈ text, c ≠ '\n') (ends : EndsLine rest)
    (others : Covers .item (position + (text.length + 1)) rest tokens error) :
    Covers zone position (';' :: text ++ rest) tokens error
  | comma {position : Nat} {rest : List Char} {tokens : List Token} {error : Option LexError}
    (others : Covers .arguments (position + 1) rest tokens error) :
    Covers .separator position (',' :: rest) tokens error
  | label {position : Nat} {name rest : List Char} {tokens : List Token}
    {error : Option LexError} (identifier : Identifier name)
    (others : Covers .item (position + (name ++ [':']).length) rest tokens error) :
    Covers .item position (name ++ [':'] ++ rest)
      (⟨.label, String.ofList name, position⟩ :: tokens) error
  | mnemonic {position : Nat} {name rest : List Char} {tokens : List Token}
    {error : Option LexError} (identifier : Identifier name) (ends : Text.Ends isSymbol rest)
    (others : Covers .arguments (position + name.length) rest tokens error) :
    Covers .item position (name ++ rest)
      (⟨.instruction, String.ofList name, position⟩ :: tokens) error
  | argument {zone : Zone} {position : Nat} {kind : TokenKind} {value : String}
    {lexeme rest : List Char} {tokens : List Token} {error : Option LexError}
    (inside : zone ≠ .item) (spelled : Spelled kind value lexeme)
    (ends : Text.Ends (continues kind) rest)
    (others : Covers .separator (position + lexeme.length) rest tokens error) :
    Covers zone position (lexeme ++ rest) (⟨kind, value, position⟩ :: tokens) error
  | done {zone : Zone} {position : Nat} : Covers zone position [] [] none
  | failed {zone : Zone} {position : Nat} {fault : LexFault} {begun rest : List Char}
    (faulty : Faulty fault begun rest) :
    Covers zone position (begun ++ rest) [] (some ⟨fault, rest.head?, position + begun.length⟩)

/-! ## Chunks -/

theorem covers_space {position : Nat} {c : Char} {rest : List Char}
    {tokens : List Token} {error : Option LexError} (space : isSpace c = true)
    (others : Covers .item (position + 1) rest tokens error) :
    Covers .item position (c :: rest) tokens error := by
  unfold isSpace at space
  rcases Bool.or_eq_true_iff.1 space with blank | line
  · exact .blank blank others
  · rw [beq_iff_eq.1 line]
    exact .line others

theorem covers_blanks {zone : Zone} {position : Nat} {blanks rest : List Char}
    {tokens : List Token} {error : Option LexError} (white : ∀ c ∈ blanks, isBlank c = true)
    (others : Covers zone (position + blanks.length) rest tokens error) :
    Covers zone position (blanks ++ rest) tokens error := by
  induction blanks generalizing position with
  | nil => exact others
  | cons c blanks ih =>
    refine .blank (white c List.mem_cons_self) (ih ?_ ?_)
    · exact fun d member => white d (List.mem_cons_of_mem _ member)
    · rwa [Nat.add_assoc, Nat.add_comm 1]

theorem ends_isStart {text : List Char} (ends : Text.Ends opens text) :
    Text.Ends isStart text := by
  intro c head
  have outside := ends c head
  simp only [opens, Bool.or_eq_false_iff] at outside
  exact outside.1.1.2

/-! ## Courses account for their texts -/

/-- A mode in which the lexer stands in a zone, in front of a text. -/
inductive StandsIn : Mode → Zone → List Char → Prop
  | item {text : List Char} : StandsIn .top .item text
  | left {zone : Zone} {text : List Char} (other : Text.Ends isStart text)
    (visible : Text.Ends isBlank text) : StandsIn .top zone text
  | argument {zone : Zone} {text : List Char} (inside : zone ≠ .item)
    (visible : Text.Ends isBlank text) : StandsIn .argument zone text
  | separator {text : List Char} : StandsIn .separator .separator text

/-- Only between items does the lexer stand in front of a name. -/
theorem zone_of_standsIn {zone : Zone} {name rest : List Char}
    (stands : StandsIn .top zone (name ++ rest)) (identifier : Identifier name) : zone = .item := by
  obtain ⟨c, others, rfl, start⟩ := identifier.start
  cases stands with
  | item => rfl
  | left other visible =>
    rw [other c rfl] at start
    cases start

/-- What stands on the chunk of a move is accounted for in front of what stands behind it. -/
theorem covers_move {mode next : Mode} {zone : Zone} {chunk rest : List Char}
    {token : Option (TokenKind × String)} (position : Nat) (move : Move mode chunk rest next token)
    (stands : StandsIn mode zone (chunk ++ rest)) :
    ∃ behind, StandsIn next behind rest ∧ ∀ tokens error,
      Covers behind (position + chunk.length) rest tokens error →
        Covers zone position (chunk ++ rest) (tokenAt position token ++ tokens) error := by
  cases move with
  | @space c _ space =>
    refine ⟨.item, .item, fun tokens error covered => ?_⟩
    cases stands with
    | item => exact covers_space space covered
    | left other visible =>
      rw [isSpace, visible c rfl, Bool.false_or, beq_iff_eq] at space
      rw [space]
      exact .line covered
  | comment inside ends => exact ⟨.item, .item, fun _ _ => .comment inside ends⟩
  | label identifier =>
    rw [List.append_assoc] at stands
    rw [zone_of_standsIn stands identifier]
    exact ⟨.item, .item, fun _ _ => .label identifier⟩
  | @mnemonic name blanks _ identifier white ends other visible =>
    rw [List.append_assoc] at stands
    rw [zone_of_standsIn stands identifier]
    refine ⟨.arguments, .argument (by decide) visible, fun tokens error covered => ?_⟩
    rw [List.length_append, ← Nat.add_assoc] at covered
    rw [List.append_assoc]
    exact .mnemonic identifier ends (covers_blanks white covered)
  | argument spelled ends =>
    cases stands with
    | argument inside => exact ⟨.separator, .separator, fun _ _ => .argument inside spelled ends⟩
  | leave ends =>
    cases stands with
    | argument inside visible =>
      exact ⟨zone, .left (ends_isStart ends) visible, fun _ _ covered => covered⟩
  | blanks white visible =>
    cases stands with
    | separator => exact ⟨.separator, .argument (by decide) visible, fun _ _ => covers_blanks white⟩
  | @comma before after _ white others visible =>
    cases stands with
    | separator =>
      refine ⟨.arguments, .argument (by decide) visible, fun tokens error covered => ?_⟩
      have chunks : before ++ ',' :: after ++ rest = before ++ ',' :: (after ++ rest) := by simp
      have place : position + (before ++ ',' :: after).length =
          position + before.length + 1 + after.length := by
        rw [List.length_append, List.length_cons]
        omega
      rw [place] at covered
      rw [chunks]
      exact covers_blanks white (.comma (covers_blanks others covered))

/-- A course accounts for what it goes over, in front of the text at which the lexer stops. -/
theorem covers_course {mode last : Mode} {zone : Zone} {position : Nat} {front rest : List Char}
    {tokens : List Token} {error : Option LexError}
    (course : Course mode position front rest last tokens)
    (stands : StandsIn mode zone (front ++ rest))
    (stopped : ∀ zone, Covers zone (position + front.length) rest [] error) :
    Covers zone position (front ++ rest) tokens error := by
  induction course generalizing zone with
  | stay => exact stopped zone
  | @move mode next last position chunk front rest token tokens move others ih =>
    rw [List.append_assoc] at stands ⊢
    obtain ⟨behind, standsBehind, covers⟩ := covers_move position move stands
    refine covers tokens error (ih standsBehind ?_)
    rwa [List.length_append, ← Nat.add_assoc] at stopped

/-- Every text is taken apart into its tokens and what stands between them. -/
theorem covers_tokenize (text : String) :
    Covers .item 0 text.toList (tokenize text).tokens (tokenize text).error := by
  rcases tokenize_course text with ⟨tokens, finished, course⟩ |
    ⟨fault, front, begun, rest, tokens, parts, faulty, course, finished⟩
  · rw [finished, ← List.append_nil text.toList]
    exact covers_course course .item fun _ => .done
  · rw [finished, parts]
    refine covers_course course .item fun zone => ?_
    rw [List.length_append, Nat.zero_add]
    exact .failed faulty

end TickMachine.Lexer
