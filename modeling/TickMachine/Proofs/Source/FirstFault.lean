import TickMachine.Proofs.Source.Course

/-! # Errors at the first possible character

The lexer reports an error at the first character that no text without faults could have in its
place. Up to this character the text can be completed, and behind it nothing matters any more. -/

namespace TickMachine

theorem Literal.Unescapes.append {front front' behind behind' : List Char}
    (first : Unescapes front front') (second : Unescapes behind behind') :
    Unescapes (front ++ behind) (front' ++ behind') := by
  induction first with
  | nil => exact second
  | plain quote backslash others ih => exact .plain quote backslash ih
  | escape means others ih => exact .escape means ih

namespace Lexer

open Charset

/-! ## Completions -/

/-- An argument that has begun can be completed. -/
theorem Faulty.completes {fault : LexFault} {begun rest : List Char}
    (faulty : Faulty fault begun rest) :
    foundIn fault = .top ∧ begun = [] ∨
      foundIn fault = .argument ∧ begun ≠ [] ∧
        ∃ more kind value, Spelled kind value (begun ++ more) := by
  cases faulty with
  | symbol => exact .inl ⟨rfl, rfl⟩
  | @number c rest sign ends =>
    have decimal : ∀ d ∈ ['0'], d.isDigit = true := List.all_eq_true.1 rfl
    exact .inr ⟨rfl, List.cons_ne_nil _ _, ['0'], _, _,
      .number ⟨.inr ⟨c, rfl, sign⟩, decimal, List.cons_ne_nil _ _⟩⟩
  | register =>
    have symbols : ∀ d ∈ ['a'], isSymbol d = true := List.all_eq_true.1 rfl
    exact .inr ⟨rfl, List.cons_ne_nil _ _, ['a'], _, _,
      .register ⟨⟨'a', [], rfl, rfl⟩, symbols⟩⟩
  | unterminated unescapes =>
    exact .inr ⟨rfl, List.cons_ne_nil _ _, ['"'], _, _, .string unescapes⟩
  | @escape body value _ unescapes unknown =>
    have ended : Literal.Unescapes ['\\', 'n'] ['\n'] := .escape rfl .nil
    have chunks : '"' :: (body ++ ['\\']) ++ ['n', '"'] = '"' :: (body ++ ['\\', 'n'] ++ ['"']) := by
      simp
    refine .inr ⟨rfl, List.cons_ne_nil _ _, ['n', '"'], .string, String.ofList (value ++ ['\n']), ?_⟩
    rw [chunks]
    exact .string (unescapes.append ended)

/-- Behind an argument the text may end. -/
theorem finish_argument_end {kind : TokenKind} {value : String} {lexeme : List Char}
    (spelled : Spelled kind value lexeme) (found : List Token) (position : Nat) :
    Scan.finish found ⟨.argument, position, lexeme⟩ =
      ⟨(⟨kind, value, position⟩ :: found).reverse, none⟩ := by
  have read : Move .argument lexeme [] .separator (some (kind, value)) :=
    .argument spelled Text.ends_nil
  have behind : Move .separator [] [] .argument none :=
    .blanks Text.inside_nil Text.ends_nil nofun
  have finished := finish_move read found position
  rw [List.append_nil] at finished
  exact finished.trans ((finish_move behind _ _).trans
    ((finish_leave Text.ends_nil _ _).trans (finish_end _ _)))

/-- In place of a text at which the lexer stops for a fault, there is another one with the same
beginning that it reads to the end. -/
theorem Faulty.exists_more {fault : LexFault} {begun rest : List Char}
    (faulty : Faulty fault begun rest) :
    ∃ more, Replaces (begun ++ more) (begun ++ rest) ∧ ∀ found position, ∃ tokens,
      Scan.finish found ⟨foundIn fault, position, begun ++ more⟩ = ⟨tokens, none⟩ := by
  rcases faulty.completes with ⟨mode, rfl⟩ | ⟨mode, filled, more, kind, value, spelled⟩
  · refine ⟨[], replaces_nil _, fun found position => ⟨found.reverse, ?_⟩⟩
    rw [mode]
    exact finish_end found position
  · refine ⟨more, ?_, fun found position => ⟨(⟨kind, value, position⟩ :: found).reverse, ?_⟩⟩
    · obtain ⟨c, others, rfl⟩ := List.exists_cons_of_ne_nil filled
      exact .of_head? rfl
    · rw [mode]
      exact finish_argument_end spelled found position

/-! ## The place of an error -/

/-- Where the lexer has stopped with an error: the course over what is in front, what has been begun,
and the rest, which starts with the character at fault. -/
structure StopsAt (text : List Char) (error : LexError) (front begun rest : List Char)
    (tokens : List Token) : Prop where
  parts : text = front ++ (begun ++ rest)
  course : Course .top 0 front (begun ++ rest) (foundIn error.fault) tokens
  faulty : Faulty error.fault begun rest
  found : error.found = rest.head?
  position : error.position = (front ++ begun).length

theorem finish_top_of_stopsAt {text front begun rest : List Char} {error : LexError}
    {tokens : List Token} (stops : StopsAt text error front begun rest tokens) :
    Scan.finish [] ⟨.top, 0, text⟩ = ⟨tokens, some error⟩ := by
  have place : 0 + front.length + begun.length = error.position := by
    rw [stops.position, List.length_append, Nat.zero_add]
  rw [stops.parts, finish_course stops.course, finish_faulty stops.faulty, List.append_nil,
    List.reverse_reverse, place, ← stops.found]

theorem exists_stopsAt {text : String} {error : LexError}
    (failed : (tokenize text).error = some error) :
    ∃ front begun rest tokens, StopsAt text.toList error front begun rest tokens := by
  rcases tokenize_course text with ⟨tokens, finished, -⟩ |
    ⟨fault, front, begun, rest, tokens, parts, faulty, course, finished⟩
  · rw [finished] at failed
    cases failed
  · rw [finished] at failed
    cases failed
    exact ⟨front, begun, rest, tokens, parts, course, faulty, rfl, rfl⟩

section

variable {text front begun rest : List Char} {error : LexError} {tokens : List Token}

/-- What stands behind the character at fault does not matter. -/
theorem StopsAt.of_take {other : List Char} (stops : StopsAt text error front begun rest tokens)
    (inside : error.position < text.length)
    (same : other.take (error.position + 1) = text.take (error.position + 1)) :
    ∃ rest', StopsAt other error front begun rest' tokens := by
  obtain ⟨parts, course, faulty, found, position⟩ := stops
  obtain ⟨c, behind, rfl⟩ : ∃ c behind, rest = c :: behind := by
    refine List.exists_cons_of_ne_nil ?_
    rintro rfl
    rw [parts, position, List.append_nil] at inside
    exact Nat.lt_irrefl _ inside
  have kept : text.take (error.position + 1) = front ++ (begun ++ [c]) := by
    rw [parts, position, ← List.append_assoc, List.take_length_add_append, List.append_assoc]
    rfl
  obtain ⟨behind', parts'⟩ : ∃ behind', other = front ++ (begun ++ c :: behind') := by
    have split := List.take_append_drop (error.position + 1) other
    rw [same, kept] at split
    exact ⟨_, by simpa using split.symm⟩
  have replaces : Replaces (c :: behind') (c :: behind) := .of_head? rfl
  exact ⟨c :: behind', parts', course.replace (replaces.append begun), faulty.of_head? rfl, found,
    position⟩

/-- What stands in front of the character at fault can be completed. -/
theorem StopsAt.exists_more (stops : StopsAt text error front begun rest tokens) :
    ∃ more tokens', Scan.finish [] ⟨.top, 0, text.take error.position ++ more⟩ =
      ⟨tokens', none⟩ := by
  obtain ⟨parts, course, faulty, -, position⟩ := stops
  obtain ⟨more, replaces, reads⟩ := faulty.exists_more
  obtain ⟨tokens', finished⟩ := reads (tokens.reverse ++ []) (0 + front.length)
  have kept : text.take error.position = front ++ begun := by
    rw [parts, position, ← List.append_assoc, List.take_left]
  refine ⟨more, tokens', ?_⟩
  rw [kept, List.append_assoc, finish_course (course.replace replaces), finished]

end

/-- The lexer reports an error at the first possible character. Where a text ends in an error, what
is in front of its place can be completed to a text that is accepted; and unless that is the end of
the text, no text that goes on with the same character is accepted, since it has the same tokens and
the same error. -/
theorem error_at_first_character (text : String) (error : LexError)
    (failed : (tokenize text).error = some error) :
    error.position ≤ text.length ∧
    (error.position < text.length →
      (∀ other : String,
        other.toList.take (error.position + 1) = text.toList.take (error.position + 1) →
          tokenize other = tokenize text ∧ lex other = .error error) ∧
      ∃ (more : String) (tokens : List Token),
        lex (String.ofList (text.toList.take error.position) ++ more) = .ok tokens) ∧
    (error.position = text.length →
      ∃ (more : String) (tokens : List Token), lex (text ++ more) = .ok tokens) := by
  obtain ⟨front, begun, rest, tokens, stops⟩ := exists_stopsAt failed
  have finished : tokenize text = ⟨tokens, some error⟩ := finish_top_of_stopsAt stops
  have completed : ∃ (more : String) (tokens : List Token),
      lex (String.ofList (text.toList.take error.position) ++ more) = .ok tokens := by
    obtain ⟨more, tokens', read⟩ := stops.exists_more
    have accepted : tokenize (String.ofList (text.toList.take error.position) ++ String.ofList more)
        = ⟨tokens', none⟩ := by
      rw [tokenize, Scan.start, String.toList_append, String.toList_ofList, String.toList_ofList,
        read]
    exact ⟨String.ofList more, tokens', by simp only [lex, accepted]⟩
  refine ⟨?_, fun inside => ⟨?_, completed⟩, ?_⟩
  · have length : text.toList.length = (front ++ begun).length + rest.length := by
      rw [stops.parts, ← List.append_assoc, List.length_append]
    rw [← String.length_toList, length, stops.position]
    exact Nat.le_add_right _ _
  · intro other same
    rw [← String.length_toList] at inside
    obtain ⟨rest', again⟩ := stops.of_take inside same
    have finished' : tokenize other = ⟨tokens, some error⟩ := finish_top_of_stopsAt again
    exact ⟨finished'.trans finished.symm, by simp only [lex, finished']⟩
  · intro atEnd
    rw [atEnd, ← String.length_toList, List.take_length, String.ofList_toList] at completed
    exact completed

/-- A sign without digits: the error shows at the character behind the sign, and nothing that follows
this character changes it. -/
theorem error_at_first_character_sign :
    let error : LexError := ⟨.number, some 'x', 5⟩
    (tokenize "LDI +x").error = some error ∧ lex "LDI +x, %R0" = .error error ∧
      ∃ (more : String) (tokens : List Token), lex ("LDI +" ++ more) = .ok tokens := by
  intro error
  have stops : Scan.finishWithin [] (Scan.start "LDI +x".toList) 5 =
      some ⟨[⟨.instruction, "LDI", 0⟩], some error⟩ := by decide +kernel
  have read : tokenize "LDI +x" = ⟨[⟨.instruction, "LDI", 0⟩], some error⟩ :=
    finish_of_finishWithin stops
  have failed : (tokenize "LDI +x").error = some error := by rw [read]
  obtain ⟨-, inside, -⟩ := error_at_first_character "LDI +x" error failed
  obtain ⟨others, completed⟩ := inside (by decide)
  exact ⟨failed, (others "LDI +x, %R0" (by decide)).2, completed⟩

end Lexer

end TickMachine
