import TickMachine.Proofs.Assembly.Verdicts
import TickMachine.Proofs.Source.Stream

/-! # Tokens that are not expected

The stream of every text has the shape on which the assembler relies. Labels and mnemonics may stand
wherever an item may begin, so that the tokens that it does not expect there are arguments of the
text: those that are left over behind an item. -/

namespace TickMachine

/-! ## The first pass -/

namespace Stage

variable {stage : Stage} {token found : Token} {tokens : List Token}

theorem isArgument_of_opened (stuck : opened token = .error (.unexpectedToken found)) :
    token = found ∧ token.isArgument = true := by
  unfold opened at stuck
  unfold Token.isArgument
  cases kind : token.kind with
  | label => simp [kind] at stuck
  | instruction =>
    simp only [kind] at stuck
    split at stuck
    · cases stuck
    · cases named : Op.ofMnemonic? token.value <;> simp [named] at stuck
  | number | string | reference | register =>
    simp only [kind] at stuck
    cases stuck
    exact ⟨rfl, rfl⟩

/-- A token that no program has in its place is not expected only where an item may begin. -/
theorem isArgument_of_next (stuck : stage.next token = .error (.unexpectedToken found)) :
    token = found ∧ token.isArgument = true := by
  cases stage with
  | between => exact isArgument_of_opened stuck
  | operands op kind kinds =>
    rw [next] at stuck
    split at stuck
    · cases stuck
    · have misfit : token.misfit op kind = .unexpectedToken found := Except.error.inj stuck
      unfold Token.misfit at misfit
      split at misfit <;> cases misfit
  | data filled =>
    rw [next] at stuck
    split at stuck
    · cases stuck
    split at stuck
    · cases stuck
    split at stuck
    · exact isArgument_of_opened stuck
    · cases stuck

theorem isArgument_of_firstError {seen : List String}
    (stuck : stage.firstError seen tokens = some (.unexpectedToken found)) :
    found ∈ tokens ∧ found.isArgument = true := by
  induction tokens generalizing stage seen with
  | nil =>
    cases stage with
    | between | operands => cases stuck
    | data filled => cases filled <;> cases stuck
  | cons token tokens ih =>
    rw [firstError] at stuck
    split at stuck
    · next error read =>
      obtain rfl := Option.some.inj stuck
      obtain ⟨rfl, argument⟩ := isArgument_of_next read
      exact ⟨List.mem_cons_self, argument⟩
    · next behind read =>
      have later : ∀ seen', behind.firstError seen' tokens = some (.unexpectedToken found) →
          found ∈ token :: tokens ∧ found.isArgument = true := fun _ others =>
        ⟨List.mem_cons_of_mem _ (ih others).1, (ih others).2⟩
      split at stuck
      · split at stuck
        · cases stuck
        · exact later _ stuck
      · exact later _ stuck

end Stage

/-! ## The second pass -/

theorem unresolved?_ne_unexpected (labels : LabelTable) (name : String) (found : Token) :
    labels.unresolved? name ≠ some (.unexpectedToken found) := by
  cases known : labels.find? name with
  | none => simp [LabelTable.unresolved?, Operand.resolve, LabelTable.address, known, errorOf?]
  | some address =>
    cases inside : Decimal.toInt32? address <;>
      simp [LabelTable.unresolved?, Operand.resolve, LabelTable.address, known, inside, errorOf?]

theorem link_ne_unexpected (draft : Draft) (found : Token) :
    draft.link ≠ .error (.unexpectedToken found) := by
  intro refused
  unfold Draft.link at refused
  split at refused
  · cases refused
  split at refused
  · next error failed =>
    cases refused
    have first := errorOf?_eq_some_iff.2 failed
    rw [errorOf?_words] at first
    obtain ⟨before, name, after, -, unresolved, -⟩ := List.findSome?_eq_some_iff.1 first
    exact unresolved?_ne_unexpected draft.labels name found unresolved
  · cases refused

/-! ## All texts -/

/-- The tokens that the assembler does not expect are arguments of the source. -/
theorem isArgument_of_assemble {source : String} {found : Token}
    (refused : assemble source = .error (.unexpectedToken found)) :
    found ∈ (tokenize source).tokens ∧ found.isArgument = true := by
  cases lexed : lex source with
  | error error =>
    rw [assemble, Assembly.ofSource, lexed] at refused
    cases refused
  | ok tokens =>
    rw [assemble_of_lex lexed] at refused
    rw [eq_of_lex lexed]
    cases extended : (Draft.empty.extend tokens).2 with
    | ok draft =>
      rw [extended] at refused
      exact absurd refused (link_ne_unexpected draft found)
    | error error =>
      rw [extended] at refused
      cases refused
      have first := errorOf?_eq_some_iff.2 extended
      rw [errorOf?_extend_empty] at first
      exact Stage.isArgument_of_firstError first

/-- What the assembler relies on in the stream of a text: it has the shape of labels and mnemonics
with their arguments, an error shows as its last entry, and what is not expected in it is an
argument. -/
structure Reliable (text : String) : Prop where
  shaped : Shaped (stream text)
  accepted : ∀ tokens, lex text = .ok tokens ↔ stream text = tokens.map .token
  refused : ∀ error, lex text = .error error ↔
    ∃ tokens : List Token, stream text = tokens.map .token ++ [.error error]
  unexpected : ∀ found, assemble text = .error (.unexpectedToken found) →
    .token found ∈ stream text ∧ found.isArgument = true

/-- The stream of every text is as the assembler relies on it. -/
theorem streams_are_reliable (text : String) : Reliable text := by
  refine ⟨shaped_stream text, fun tokens => ⟨stream_of_lex, ?_⟩, fun error => ⟨?_, ?_⟩, ?_⟩
  · intro same
    have found := tokenize_of_stream ⟨tokens, none⟩ (by simpa [Lexer.Tokens.entries] using same)
    rw [lex, found]
  · intro failed
    rw [lex_eq_error_iff] at failed
    exact ⟨(tokenize text).tokens, by simp [stream, Lexer.Tokens.entries, failed]⟩
  · rintro ⟨tokens, same⟩
    have found := tokenize_of_stream ⟨tokens, some error⟩ same
    rw [lex, found]
  · intro found refused
    rw [token_mem_stream]
    exact isArgument_of_assemble refused

end TickMachine
