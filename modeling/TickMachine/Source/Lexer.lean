import TickMachine.Source.Charset
import TickMachine.Source.Literal

/-! # Lexer

The lexer is a machine with a mode and a place in the text. Every transition passes over some
characters, may complete a token, and names the mode that follows. A transition that passes over
nothing leads to a mode of lower rank, so that the machine stops on every text: at the end of the
text, or at the first fault. -/

namespace TickMachine

namespace Lexer

open Charset

/-- What the lexer is about to read. -/
inductive Mode
  | top
  | comment
  | label
  | instruction
  | argument
  | number
  | reference
  | register
  | string
  | separator
  | failed (fault : LexFault)
  | done
  deriving DecidableEq, Repr

namespace Mode

/-- The order in which modes follow each other without passing over a character. -/
def rank : Mode → Nat
  | .separator => 4
  | .argument => 3
  | .top => 2
  | .comment | .label | .instruction | .number | .reference | .register | .string => 1
  | .failed _ | .done => 0

/-- The modes in which the lexer has stopped. -/
def isFinal : Mode → Bool
  | .failed _ | .done => true
  | _ => false

end Mode

/-- A transition: the number of characters passed over, the mode that follows, and the kind and
the value of the token that is completed. -/
structure Transition where
  used : Nat
  mode : Mode
  token : Option (TokenKind × String) := none
  deriving DecidableEq, Repr

/-- The number of characters of a class at the start of a text. -/
def run (p : Char → Bool) (text : List Char) : Nat := (text.takeWhile p).length

/-- Whether the identifier at the start of a text is followed by a colon at once. -/
def labelAhead (text : List Char) : Bool :=
  match text with
  | [] => false
  | c :: rest => isStart c && (rest.dropWhile isSymbol).head? == some ':'

/-- The mode in front of the first character of an item or of a comment. -/
def entry (text : List Char) : Mode :=
  match text with
  | [] => .done
  | c :: _ =>
    if c = ';' then .comment
    else if isStart c then if labelAhead text then .label else .instruction
    else .failed .unexpectedSymbol

/-- The transition between the items of a program, over white space. -/
def top (text : List Char) : Transition :=
  let skipped := run isSpace text
  ⟨skipped, entry (text.drop skipped), none⟩

/-- The transition over a comment, which ends before the line does. -/
def comment (text : List Char) : Transition :=
  if text.head? = some ';' then ⟨run (· != '\n') text, .top, none⟩
  else ⟨0, .failed .commentStart, none⟩

/-- The transition over a label and its colon. -/
def label (text : List Char) : Transition :=
  let name := text.takeWhile isSymbol
  if (text.drop name.length).head? = some ':' then
    ⟨name.length + 1, .top, some (.label, String.ofList name)⟩
  else ⟨name.length, .failed .labelEnd, none⟩

/-- The transition over a mnemonic and the blanks behind it. The mode is entered in front of an
identifier only, so the lexer never finds an empty name here. The fault stands in the place of a
token of an empty name, since no transition but a fault may pass over nothing. -/
def instruction (text : List Char) : Transition :=
  let name := text.takeWhile isSymbol
  if name = [] then ⟨0, .failed .unexpectedSymbol, none⟩
  else
    let rest := text.drop name.length
    let used := name.length + run isBlank rest
    let mode : Mode := match text.drop used with
      | [] => .done
      | c :: _ => if c = '\n' then .top else .argument
    ⟨used, mode, some (.instruction, String.ofList name)⟩

/-- The transition in front of a possible operand: its first character decides on its kind, and
any other character ends the operands. -/
def argument (text : List Char) : Transition :=
  match text with
  | [] => ⟨0, .top, none⟩
  | c :: _ =>
    if c.isDigit || isSign c then ⟨0, .number, none⟩
    else if isStart c then ⟨0, .reference, none⟩
    else if c = '%' then ⟨0, .register, none⟩
    else if c = '"' then ⟨0, .string, none⟩
    else ⟨run isSpace text, .top, none⟩

/-- The transition over a number: a sign, if there is one, and at least one digit. -/
def number (text : List Char) : Transition :=
  let sign := (text.take 1).filter isSign
  let digits := (text.drop sign.length).takeWhile Char.isDigit
  if digits = [] then ⟨sign.length, .failed .number, none⟩
  else
    let value := sign ++ digits
    ⟨value.length, .separator, some (.number, String.ofList value)⟩

/-- The transition over a label used as an operand. The mode is entered in front of an identifier
only, and the fault stands in the place of a token of an empty name as for a mnemonic. -/
def reference (text : List Char) : Transition :=
  let name := text.takeWhile isSymbol
  if name = [] then ⟨0, .failed .unexpectedSymbol, none⟩
  else ⟨name.length, .separator, some (.reference, String.ofList name)⟩

/-- The transition over a register and the mark in front of it. -/
def register (text : List Char) : Transition :=
  match text with
  | '%' :: rest =>
    if rest.head?.any isStart then
      let name := rest.takeWhile isSymbol
      ⟨name.length + 1, .separator, some (.register, String.ofList name)⟩
    else ⟨1, .failed .registerName, none⟩
  | _ => ⟨0, .failed .registerMark, none⟩

/-- The transition over a string and its quotes. -/
def string (text : List Char) : Transition :=
  match text with
  | '"' :: rest =>
    match Literal.scan [] 1 rest with
    | .closed value used => ⟨used, .separator, some (.string, String.ofList value)⟩
    | .faulty fault used => ⟨used, .failed fault, none⟩
  | _ => ⟨0, .failed .stringStart, none⟩

/-- The transition behind an operand: blanks with at most one comma among them. -/
def separator (text : List Char) : Transition :=
  let before := run isBlank text
  let comma := if (text.drop before).head? = some ',' then 1 else 0
  let after := run isBlank (text.drop (before + comma))
  ⟨before + comma + after, .argument, none⟩

/-- The transition that a mode makes at the start of a text. -/
def Mode.transition : Mode → List Char → Transition
  | .top => Lexer.top
  | .comment => Lexer.comment
  | .label => Lexer.label
  | .instruction => Lexer.instruction
  | .argument => Lexer.argument
  | .number => Lexer.number
  | .reference => Lexer.reference
  | .register => Lexer.register
  | .string => Lexer.string
  | .separator => Lexer.separator
  | .failed fault => fun _ => ⟨0, .failed fault, none⟩
  | .done => fun _ => ⟨0, .done, none⟩

/-! ## Every transition makes progress -/

theorem takeWhile_length_le (p : Char → Bool) (text : List Char) :
    (text.takeWhile p).length ≤ text.length :=
  (List.takeWhile_sublist p).length_le

theorem run_le (p : Char → Bool) (text : List Char) : run p text ≤ text.length :=
  takeWhile_length_le p text

theorem run_drop_le (p : Char → Bool) (text : List Char) {n : Nat} (h : n ≤ text.length) :
    n + run p (text.drop n) ≤ text.length := by
  have := run_le p (text.drop n)
  rw [List.length_drop] at this
  omega

/-- No transition passes over more characters than there are. -/
theorem used_le (mode : Mode) (text : List Char) : (mode.transition text).used ≤ text.length := by
  cases mode with
  | top => exact run_le isSpace text
  | comment =>
    simp only [Mode.transition, comment]
    split
    · exact run_le _ text
    · exact Nat.zero_le _
  | label =>
    simp only [Mode.transition, label]
    have := takeWhile_length_le isSymbol text
    split
    · next colon =>
      have : (text.takeWhile isSymbol).length < text.length := by
        rcases Nat.lt_or_ge (text.takeWhile isSymbol).length text.length with h | h
        · exact h
        · simp [List.drop_eq_nil_of_le h] at colon
      exact this
    · exact this
  | instruction =>
    simp only [Mode.transition, instruction]
    split
    · exact Nat.zero_le _
    · exact run_drop_le _ _ (takeWhile_length_le isSymbol text)
  | argument =>
    simp only [Mode.transition, argument]
    repeat' split
    all_goals first | exact Nat.zero_le _ | exact run_le _ _
  | number =>
    simp only [Mode.transition, number]
    have sign : ((text.take 1).filter isSign).length ≤ text.length :=
      Nat.le_trans (List.length_filter_le _ _) (List.length_take_le' _ _)
    split
    · exact sign
    · have := takeWhile_length_le Char.isDigit (text.drop ((text.take 1).filter isSign).length)
      rw [List.length_drop] at this
      simp only [List.length_append]
      omega
  | reference =>
    simp only [Mode.transition, reference]
    split
    · exact Nat.zero_le _
    · exact takeWhile_length_le isSymbol text
  | register =>
    simp only [Mode.transition, register]
    split
    · next rest =>
      have := takeWhile_length_le isSymbol rest
      split <;> simp only [List.length_cons] <;> omega
    · exact Nat.zero_le _
  | string =>
    simp only [Mode.transition, string]
    split
    · next rest =>
      have := Literal.scan_used_le [] 1 rest
      split <;> simp_all only [Literal.Scan.used, List.length_cons] <;> omega
    · exact Nat.zero_le _
  | separator =>
    simp only [Mode.transition, separator]
    apply run_drop_le
    split
    · next comma =>
      have := run_le isBlank text
      rcases Nat.lt_or_ge (run isBlank text) text.length with h | h
      · exact h
      · simp [List.drop_eq_nil_of_le h] at comma
    · exact run_le isBlank text
  | failed fault => exact Nat.zero_le _
  | done => exact Nat.zero_le _

/-- A transition of a mode that is not final passes over a character or lowers the rank. -/
theorem progress (mode : Mode) (text : List Char) (h : mode.isFinal = false) :
    0 < (mode.transition text).used ∨ (mode.transition text).mode.rank < mode.rank := by
  cases mode with
  | top =>
    right
    simp only [Mode.transition, top, entry]
    repeat' split
    all_goals simp [Mode.rank]
  | comment =>
    simp only [Mode.transition, comment]
    split
    · next semicolon =>
      left
      cases text with
      | nil => simp at semicolon
      | cons c rest =>
        obtain rfl : c = ';' := by simpa using semicolon
        simp [run]
    · exact .inr (by simp [Mode.rank])
  | label =>
    simp only [Mode.transition, label]
    split
    · exact .inl (Nat.succ_pos _)
    · exact .inr (by simp [Mode.rank])
  | instruction =>
    simp only [Mode.transition, instruction]
    split
    · exact .inr (by simp [Mode.rank])
    · next name => exact .inl (Nat.add_pos_left (List.length_pos_iff.2 name) _)
  | argument =>
    right
    simp only [Mode.transition, argument]
    repeat' split
    all_goals simp [Mode.rank]
  | number =>
    simp only [Mode.transition, number]
    split
    · exact .inr (by simp [Mode.rank])
    · next digits =>
      left
      simp only [List.length_append]
      have := List.length_pos_iff.2 digits
      omega
  | reference =>
    simp only [Mode.transition, reference]
    split
    · exact .inr (by simp [Mode.rank])
    · next name => exact .inl (List.length_pos_iff.2 name)
  | register =>
    simp only [Mode.transition, register]
    split
    · split
      · exact .inl (Nat.succ_pos _)
      · exact .inr (by simp [Mode.rank])
    · exact .inr (by simp [Mode.rank])
  | string =>
    simp only [Mode.transition, string]
    split
    · next rest =>
      have := Literal.le_scan_used [] 1 rest
      split
      · next value used closed =>
        left
        rw [closed] at this
        exact this
      · exact .inr (by simp [Mode.rank])
    · exact .inr (by simp [Mode.rank])
  | separator => exact .inr (by simp [Mode.transition, separator, Mode.rank])
  | failed fault => cases h
  | done => cases h

/-! ## The run of the machine -/

/-- The lexer at a place in the text: the mode, the number of characters passed over, and the
characters that are left. -/
structure Scan where
  mode : Mode
  position : Nat
  rest : List Char
  deriving DecidableEq, Repr

namespace Scan

/-- The lexer in front of a text. -/
def start (text : List Char) : Scan := ⟨.top, 0, text⟩

/-- The transition that the lexer makes here. -/
def transition (scan : Scan) : Transition := scan.mode.transition scan.rest

/-- The token completed here, which starts where the lexer stands. -/
def token? (scan : Scan) : Option Token :=
  scan.transition.token.map fun (kind, value) => ⟨kind, value, scan.position⟩

/-- The lexer after one transition. -/
def next (scan : Scan) : Scan where
  mode := scan.transition.mode
  position := scan.position + scan.transition.used
  rest := scan.rest.drop scan.transition.used

/-- The error with which the lexer has stopped here. -/
def error? (scan : Scan) : Option LexError :=
  match scan.mode with
  | .failed fault => some ⟨fault, scan.rest.head?, scan.position⟩
  | _ => none

end Scan

/-- The tokens of a text, in order, and the error that ends it early. -/
structure Tokens where
  tokens : List Token
  error : Option LexError
  deriving DecidableEq, Repr

/-- Runs the lexer until it stops. `found` holds the tokens completed so far, the last one
first. -/
def Scan.finish (found : List Token) (scan : Scan) : Tokens :=
  if scan.mode.isFinal then ⟨found.reverse, scan.error?⟩
  else scan.next.finish (scan.token?.toList ++ found)
termination_by (scan.rest.length, scan.mode.rank)
decreasing_by
  have used := used_le scan.mode scan.rest
  have active : scan.mode.isFinal = false := by simpa using ‹¬scan.mode.isFinal = true›
  rcases progress scan.mode scan.rest active with shorter | lower
  · apply Prod.Lex.left
    simp only [Scan.next, Scan.transition, List.length_drop]
    omega
  · by_cases shorter : 0 < (scan.mode.transition scan.rest).used
    · apply Prod.Lex.left
      simp only [Scan.next, Scan.transition, List.length_drop]
      omega
    · have same : (scan.mode.transition scan.rest).used = 0 := by omega
      simp only [Scan.next, Scan.transition, same, List.drop_zero]
      exact Prod.Lex.right _ lower

end Lexer

/-- Splits a text into tokens, up to its first fault. -/
def tokenize (text : String) : Lexer.Tokens := (Lexer.Scan.start text.toList).finish []

/-- The tokens of a text without faults, or its first fault. -/
def lex (text : String) : Except LexError (List Token) :=
  match (tokenize text).error with
  | some error => .error error
  | none => .ok (tokenize text).tokens

end TickMachine
