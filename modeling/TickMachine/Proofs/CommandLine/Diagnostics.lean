import TickMachine.CommandLine.Session
import TickMachine.Proofs.Text.Lines

/-! # The last message

A command that fails adds the message of its error to those that its log has kept, whatever the
threshold is. The message of a fault takes one line, so the last line of the standard error is the
message of the fault behind its level. -/

namespace TickMachine

/-! ## Lines -/

/-- The last line of a text in which every line is ended. -/
structure LastLine (text line : String) : Prop where
  oneLine : OneLine line
  ends : ∃ before, (before = "" ∨ ∃ earlier, before = earlier ++ "\n") ∧
    text = before ++ line ++ "\n"

/-- The message of a fault takes one line. -/
theorem oneLine_message (fault : Fault) : OneLine fault.message := by
  cases fault with
  | unknownOpcode opcode address =>
    exact .append (.append (.append (by decide) (oneLine_ofInt32 opcode)) (by decide))
      (oneLine_ofNat address)
  | argumentCount op address expected got =>
    refine .append (.append (.append (.append (.append ?_ (oneLine_mnemonic op)) ?_)
      (oneLine_ofNat address)) ?_) (.append (.append (.append ?_ (oneLine_ofNat expected)) ?_)
        (oneLine_ofNat got))
    all_goals decide
  | invalidRegister code => exact .append (.append (by decide) (oneLine_ofInt32 code)) (by decide)
  | memoryOutOfBounds address =>
    exact .append (.append (by decide) (oneLine_ofInt32 address)) (by decide)
  | inputExhausted => decide
  | invalidBranchTarget target => exact .append (by decide) (oneLine_ofInt32 target)
  | stepLimitExceeded limit => exact .append (.append (by decide) (oneLine_ofNat limit)) (by decide)

namespace CommandLine

/-- Every line of the messages is ended. -/
theorem ended_messages (messages : List Message) :
    String.join (messages.map fun message => message.line ++ "\n") = "" ∨
      ∃ earlier, String.join (messages.map fun message => message.line ++ "\n") =
        earlier ++ "\n" := by
  rcases List.eq_nil_or_concat messages with rfl | ⟨others, last, rfl⟩
  · exact .inl rfl
  · refine .inr ⟨String.join (others.map fun message => message.line ++ "\n") ++ last.line, ?_⟩
    simp [String.join_append, String.append_assoc]

/-- Messages of errors are never dropped. -/
theorem messages_add_error (log : Log) (text : Unit → String) :
    (log.add .error text).messages.toList = log.messages.toList ++ [⟨.error, text ()⟩] := by
  have kept : log.threshold ≤ .error := by
    cases log.threshold <;> decide
  rw [Log.add, if_pos kept, Array.toList_push]

theorem line_error (text : String) : Message.line ⟨.error, text⟩ = "[ERROR] " ++ text := by
  have level : "[" ++ Text.padRight 5 ' ' Level.error.name ++ "] " = "[ERROR] " := by
    decide +kernel
  rw [Message.line, level]

/-- The last line about a command that fails is its error. -/
theorem lastLine_conclude (log : Log) {error : CommandError} (oneLine : OneLine error.message) :
    LastLine (conclude log (.error error)).diagnostics ("[ERROR] " ++ error.message) where
  oneLine := .append (by decide) oneLine
  ends := by
    refine ⟨_, ended_messages log.messages.toList, ?_⟩
    simp only [conclude, Conclusion.diagnostics, messages_add_error, List.map_append,
      List.map_singleton, String.join_append, String.join_cons, String.join_nil, line_error,
      String.append_assoc, String.empty_append, String.append_empty]

end CommandLine

end TickMachine
