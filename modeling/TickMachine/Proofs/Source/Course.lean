import TickMachine.Proofs.Source.Moves

/-! # The course of the lexer

From every place between lexemes the lexer moves over chunks of text to the end of the text or to a
fault. Its course depends on what stands behind it by the next character only. So the course over a
text without faults is the same in front of a line break and another text, which it reads as if
nothing stood in front. -/

namespace TickMachine

/-- The token of a text that stands further behind. -/
def Token.moved (distance : Nat) (token : Token) : Token :=
  { token with position := token.position + distance }

/-- The error of a text that stands further behind. -/
def LexError.moved (distance : Nat) (error : LexError) : LexError :=
  { error with position := error.position + distance }

namespace Lexer

/-! ## Courses -/

/-- The moves of the lexer over a text in front of the rest, from a mode and a place on, with the
tokens found on the way. -/
inductive Course : Mode → Nat → List Char → List Char → Mode → List Token → Prop
  | stay {mode : Mode} {position : Nat} {rest : List Char} : Course mode position [] rest mode []
  | move {mode next last : Mode} {position : Nat} {chunk front rest : List Char}
    {token : Option (TokenKind × String)} {tokens : List Token}
    (move : Move mode chunk (front ++ rest) next token)
    (others : Course next (position + chunk.length) front rest last tokens) :
    Course mode position (chunk ++ front) rest last (tokenAt position token ++ tokens)

section

variable {mode last : Mode} {position : Nat} {front rest : List Char} {tokens : List Token}

/-- The lexer takes the course. -/
theorem finish_course (course : Course mode position front rest last tokens)
    (found : List Token) :
    Scan.finish found ⟨mode, position, front ++ rest⟩ =
      Scan.finish (tokens.reverse ++ found) ⟨last, position + front.length, rest⟩ := by
  induction course generalizing found with
  | stay => rfl
  | @move mode next last position chunk front rest token tokens move others ih =>
    have once : (tokenAt position token).reverse = tokenAt position token := by
      cases token <;> rfl
    rw [List.append_assoc, finish_move move, ih, List.reverse_append, List.append_assoc, once,
      List.length_append, Nat.add_assoc]

/-- A course is the same in front of every text that may stand behind it. -/
theorem Course.replace {other : List Char}
    (course : Course mode position front rest last tokens) (replaces : Replaces other rest) :
    Course mode position front other last tokens := by
  induction course with
  | stay => exact .stay
  | move move others ih =>
    exact .move (move.replace (replaces.append _)) (ih replaces)

/-- The course over a text that stands further behind. -/
theorem Course.moved (course : Course mode position front rest last tokens) (distance : Nat) :
    Course mode (position + distance) front rest last (tokens.map (Token.moved distance)) := by
  induction course with
  | stay => exact .stay
  | @move mode next last position chunk front rest token tokens move others ih =>
    have first : (tokenAt position token).map (Token.moved distance) =
        tokenAt (position + distance) token := by
      cases token <;> rfl
    rw [List.map_append, first]
    refine .move move ?_
    rwa [Nat.add_right_comm]

/-- From every place between lexemes the lexer takes a course to a stop. -/
theorem exists_course (station : Station mode) (position : Nat) (text : List Char) :
    ∃ front rest last tokens, text = front ++ rest ∧
      Course mode position front rest last tokens ∧ Stop last rest := by
  -- a move without a chunk lowers the rank, which is four at most
  generalize size : 5 * text.length + mode.rank = n
  induction n using Nat.strongRecOn generalizing mode position text with
  | ind n ih =>
    rcases movesOrStops station text with stop | ⟨chunk, behind, next, token, rfl, move⟩
    · exact ⟨[], text, mode, [], rfl, .stay, stop⟩
    · obtain ⟨station', progress⟩ := move.progress
      have bounded : next.rank ≤ 4 := by cases next <;> simp [Mode.rank]
      rw [List.length_append] at size
      obtain ⟨front, rest, last, tokens, rfl, course, stop⟩ :=
        ih (5 * behind.length + next.rank) (by omega) station' (position + chunk.length) behind rfl
      exact ⟨chunk ++ front, rest, last, _, (List.append_assoc _ _ _).symm, .move move course,
        stop⟩

/-- The lexer reads a text that stands further behind in the same way. -/
theorem finish_moved (text : List Char) (found : List Token) (distance : Nat) :
    Scan.finish found ⟨.top, distance, text⟩ =
      ⟨found.reverse ++ (Scan.finish [] ⟨.top, 0, text⟩).tokens.map (Token.moved distance),
        (Scan.finish [] ⟨.top, 0, text⟩).error.map (LexError.moved distance)⟩ := by
  obtain ⟨front, rest, last, tokens, rfl, course, stop⟩ := exists_course (.inl rfl) 0 text
  have course' := course.moved distance
  rw [Nat.zero_add] at course'
  rw [finish_course course', finish_course course]
  cases stop with
  | ended =>
    rw [finish_end, finish_end]
    simp
  | faulty faulty =>
    rw [finish_faulty faulty, finish_faulty faulty]
    simp [LexError.moved, Nat.add_comm distance, Nat.add_right_comm _ distance]

/-- The course over a text leads to its end or to a fault. -/
theorem tokenize_course (text : String) :
    (∃ tokens, tokenize text = ⟨tokens, none⟩ ∧ Course .top 0 text.toList [] .top tokens) ∨
    ∃ fault front begun rest tokens, text.toList = front ++ (begun ++ rest) ∧
      Faulty fault begun rest ∧ Course .top 0 front (begun ++ rest) (foundIn fault) tokens ∧
      tokenize text = ⟨tokens, some ⟨fault, rest.head?, (front ++ begun).length⟩⟩ := by
  obtain ⟨front, rest, last, tokens, parts, course, stop⟩ :=
    exists_course (.inl rfl) 0 text.toList
  have finished : tokenize text =
      Scan.finish (tokens.reverse ++ []) ⟨last, 0 + front.length, rest⟩ := by
    rw [tokenize, Scan.start, parts, finish_course course]
  rw [List.append_nil, Nat.zero_add] at finished
  cases stop with
  | ended =>
    rw [finish_end, List.reverse_reverse] at finished
    rw [List.append_nil] at parts
    exact .inl ⟨tokens, finished, parts ▸ course⟩
  | @faulty fault begun rest faulty =>
    rw [finish_faulty faulty, List.reverse_reverse, ← List.length_append] at finished
    exact .inr ⟨fault, front, begun, rest, tokens, parts, faulty, course, finished⟩

theorem course_of_lex {text : String} (lexed : lex text = .ok tokens) :
    tokenize text = ⟨tokens, none⟩ ∧ Course .top 0 text.toList [] .top tokens := by
  rcases tokenize_course text with ⟨found, finished, course⟩ |
    ⟨fault, front, begun, rest, found, -, -, -, finished⟩
  · rw [lex, finished] at lexed
    cases lexed
    exact ⟨finished, course⟩
  · rw [lex, finished] at lexed
    cases lexed

theorem lex_of_course {text : String} (course : Course .top 0 text.toList [] .top tokens) :
    lex text = .ok tokens := by
  have finished := (finish_course course []).trans (finish_end _ _)
  rw [List.append_nil, List.append_nil, List.reverse_reverse] at finished
  rw [lex, tokenize, Scan.start, finished]

/-- Behind a text without faults and a line break, the lexer starts afresh. -/
theorem tokenize_append {front : String} (lexed : lex front = .ok tokens) (back : String) :
    tokenize (front ++ "\n" ++ back) =
      ⟨tokens ++ (tokenize back).tokens.map (Token.moved (front.length + 1)),
        (tokenize back).error.map (LexError.moved (front.length + 1))⟩ := by
  have replaces : Replaces ('\n' :: back.toList) [] := by
    intro c head
    exact .inr (Option.some.inj head).symm
  have course := (course_of_lex lexed).2.replace replaces
  have line : Move .top ['\n'] back.toList .top none := .space rfl
  have text : (front ++ "\n" ++ back).toList = front.toList ++ (['\n'] ++ back.toList) := by
    rw [String.toList_append, String.toList_append, List.append_assoc]
    rfl
  have moved := finish_moved back.toList (tokens.reverse ++ []) (front.length + 1)
  rw [List.append_nil, List.reverse_reverse] at moved
  rw [tokenize, Scan.start, text]
  refine (finish_course course []).trans ((finish_move line _ _).trans ?_)
  rw [Nat.zero_add, String.length_toList, List.append_nil]
  exact moved

theorem lex_append {front back : String} {others : List Token} (lexed : lex front = .ok tokens)
    (lexed' : lex back = .ok others) :
    lex (front ++ "\n" ++ back) = .ok (tokens ++ others.map (Token.moved (front.length + 1))) := by
  rw [lex, tokenize_append lexed, (course_of_lex lexed').1]
  rfl

end

end Lexer

end TickMachine
