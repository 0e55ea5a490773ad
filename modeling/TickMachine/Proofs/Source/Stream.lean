import TickMachine.Proofs.Source.Printing

/-! # The stream of a text

What the lexer finds in a text, one behind the other: labels, mnemonics with the arguments behind
them, and at most one error, which comes last. Behind a text without an error and a line break the
stream of another text follows, as it would be found in that text alone. -/

namespace TickMachine

namespace Lexer

/-! ## Streams -/

/-- What the lexer finds at a place of a text. -/
inductive Entry
  | token (token : Token)
  | error (error : LexError)
  deriving DecidableEq

/-- The entry of a text that stands further behind. -/
def Entry.moved (distance : Nat) : Entry → Entry
  | token found => .token (found.moved distance)
  | error found => .error (found.moved distance)

/-- The token of an entry. -/
def Entry.token? : Entry → Option Token
  | token found => some found
  | error _ => none

/-- The error of an entry. -/
def Entry.error? : Entry → Option LexError
  | token _ => none
  | error found => some found

/-- The tokens, and the error behind them. -/
def Tokens.entries (found : Tokens) : List Entry :=
  found.tokens.map .token ++ (found.error.map .error).toList

end Lexer

open Lexer (Entry Identifier)

/-- What the lexer finds in a text, in its order. -/
def stream (text : String) : List Entry := (tokenize text).entries

theorem token_mem_stream {text : String} {token : Token} :
    .token token ∈ stream text ↔ token ∈ (tokenize text).tokens := by
  simp [stream, Lexer.Tokens.entries]

theorem stream_of_lex {text : String} {tokens : List Token} (lexed : lex text = .ok tokens) :
    stream text = tokens.map .token := by
  simp [stream, Lexer.Tokens.entries, eq_of_lex lexed]

/-- The tokens and the error are read off their entries. -/
theorem tokenize_of_stream {text : String} (found : Lexer.Tokens)
    (same : stream text = found.entries) : tokenize text = found := by
  have tokens : ∀ found : Lexer.Tokens, found.entries.filterMap Entry.token? = found.tokens := by
    intro found
    cases ended : found.error <;>
      simp [Lexer.Tokens.entries, ended, Entry.token?, Function.comp_def]
  have errors : ∀ found : Lexer.Tokens, found.entries.findSome? Entry.error? = found.error := by
    intro found
    have nothing : (found.tokens.map Entry.token).findSome? Entry.error? = none :=
      List.findSome?_eq_none_iff.2 (by simp [Entry.error?])
    cases ended : found.error <;> simp [Lexer.Tokens.entries, nothing, ended, Entry.error?]
  have sameTokens := tokens (tokenize text)
  have sameErrors := errors (tokenize text)
  rw [← stream, same, tokens] at sameTokens
  rw [← stream, same, errors] at sameErrors
  calc tokenize text = ⟨(tokenize text).tokens, (tokenize text).error⟩ := rfl
    _ = ⟨found.tokens, found.error⟩ := by rw [← sameTokens, ← sameErrors]
    _ = found := rfl

/-! ## Texts with a line break between them -/

/-- The stream of two texts with a line break between them, of which the first one is accepted. The
second one is read as it is read alone, further behind. -/
structure ReadApart (front back : String) : Prop where
  joined : stream (front ++ "\n" ++ back) =
    stream front ++ (stream back).map (Entry.moved (front.length + 1))
  kept : stream front <+: stream (front ++ "\n" ++ back)
  accepted : ∀ tokens others, lex front = .ok tokens → lex back = .ok others →
    lex (front ++ "\n" ++ back) = .ok (tokens ++ others.map (Token.moved (front.length + 1)))
  refused : ∀ error, lex back = .error error →
    lex (front ++ "\n" ++ back) = .error (error.moved (front.length + 1)) ∧
      (error.moved (front.length + 1)).message = error.fault.text ++ ": " ++ error.symbol ++
        " (position " ++ Decimal.ofNat (error.position + (front.length + 1)) ++ ")"

theorem lex_eq_error_iff {text : String} {error : LexError} :
    lex text = .error error ↔ (tokenize text).error = some error := by
  unfold lex
  split
  · next found ended => simp [ended]
  · next ended => simp [ended]

/-- A line break starts afresh: what is behind it does not change what has been found in front, and
is read as if nothing stood in front. -/
theorem line_breaks_start_afresh {front : String} {tokens : List Token}
    (lexed : lex front = .ok tokens) (back : String) : ReadApart front back := by
  have whole := Lexer.tokenize_append lexed back
  have joined : stream (front ++ "\n" ++ back) =
      stream front ++ (stream back).map (Entry.moved (front.length + 1)) := by
    rw [stream_of_lex lexed, stream, whole, stream, Lexer.Tokens.entries, Lexer.Tokens.entries]
    cases (tokenize back).error <;> simp [Entry.moved, Function.comp_def]
  refine ⟨joined, ?_, ?_, ?_⟩
  · rw [joined]
    exact List.prefix_append _ _
  · intro found others lexedFront lexedBack
    exact Lexer.lex_append lexedFront lexedBack
  · intro error failed
    rw [lex_eq_error_iff] at failed ⊢
    rw [whole, failed]
    exact ⟨rfl, rfl⟩

/-- A line that ends in a comma is not continued by a number on the next line. -/
theorem line_breaks_start_afresh_comma :
    lex "WORD 1," = .ok [⟨.instruction, "WORD", 0⟩, ⟨.number, "1", 5⟩] ∧
      lex "5" = .error ⟨.unexpectedSymbol, some '5', 0⟩ ∧
      lex "WORD 1,\n5" = .error ⟨.unexpectedSymbol, some '5', 8⟩ := by
  have lexed : lex "WORD 1," = .ok [⟨.instruction, "WORD", 0⟩, ⟨.number, "1", 5⟩] :=
    Lexer.lex_of_finishWithin 8 (by decide +kernel)
  have stops : Lexer.Scan.finishWithin [] (Lexer.Scan.start "5".toList) 3 =
      some ⟨[], some ⟨.unexpectedSymbol, some '5', 0⟩⟩ := by decide +kernel
  have found : tokenize "5" = ⟨[], some ⟨.unexpectedSymbol, some '5', 0⟩⟩ :=
    Lexer.finish_of_finishWithin stops
  have failed : lex "5" = .error ⟨.unexpectedSymbol, some '5', 0⟩ :=
    lex_eq_error_iff.2 (by rw [found])
  exact ⟨lexed, failed, ((line_breaks_start_afresh lexed "5").refused _ failed).1⟩

/-! ## The shape of a stream -/

/-- The faults that the lexer would find in a mode in front of a text for which it is not meant. -/
def LexFault.isOutOfPlace : LexFault → Bool
  | .commentStart | .labelEnd | .registerMark | .stringStart => true
  | .unexpectedSymbol | .number | .registerName | .unterminatedString | .escape => false

/-- Labels and mnemonics, with arguments behind the latter, each of them of its class, and an error
at the end or none. -/
inductive Shaped : List Entry → Prop
  | ended : Shaped []
  | failed {error : LexError} (fault : error.fault.isOutOfPlace = false) : Shaped [.error error]
  | label {head : Token} {others : List Entry} (kind : head.kind = .label) (lexical : head.Lexical)
    (behind : Shaped others) : Shaped (.token head :: others)
  | instruction {head : Token} {arguments : List Token} {others : List Entry}
    (kind : head.kind = .instruction) (lexical : head.Lexical)
    (inside : ∀ argument ∈ arguments, argument.isArgument = true ∧ argument.Lexical)
    (behind : Shaped others) : Shaped (.token head :: (arguments.map .token ++ others))

theorem fault_of_faulty {fault : LexFault} {begun rest : List Char}
    (faulty : Lexer.Faulty fault begun rest) : fault.isOutOfPlace = false := by
  cases faulty <;> rfl

theorem shaped_of_orderly {tokens : List Token} {others : List Entry} (orderly : Orderly tokens)
    (lexical : ∀ token ∈ tokens, token.Lexical) (behind : Shaped others) :
    Shaped (tokens.map .token ++ others) := by
  induction orderly with
  | nil => exact behind
  | label kind _ ih =>
    obtain ⟨first, classes⟩ := List.forall_mem_cons.1 lexical
    exact .label kind first (ih classes)
  | instruction kind inside _ ih =>
    obtain ⟨first, classes⟩ := List.forall_mem_cons.1 lexical
    obtain ⟨arguments, classes⟩ := List.forall_mem_append.1 classes
    rw [List.map_cons, List.map_append, List.cons_append, List.append_assoc]
    exact .instruction kind first (fun argument member =>
      ⟨inside argument member, arguments argument member⟩) (ih classes)

theorem shaped_stream (text : String) : Shaped (stream text) := by
  refine shaped_of_orderly (orderly_tokenize text) (lexical_tokenize text) ?_
  cases ended : (tokenize text).error with
  | none => exact .ended
  | some error =>
    obtain ⟨front, rest, begun, -, -, -, faulty, -⟩ :=
      Lexer.stopsIn_of_covers (Lexer.covers_tokenize text) ended
    exact .failed (fault_of_faulty faulty)

end TickMachine
