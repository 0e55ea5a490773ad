import TickMachine.Text.Decimal
import TickMachine.Text.Shown

/-! # Tokens

The tokens of assembly text, the faults that end a text early, and their wording. The value of a
token is free of the marks around it: no colon after a label, no percent sign before a register,
no quotes around a string. -/

namespace TickMachine

/-- The kind of a token. -/
inductive TokenKind
  | label
  | instruction
  | number
  | string
  | reference
  | register
  deriving DecidableEq, Repr

/-- The name of the kind in messages. -/
def TokenKind.text : TokenKind → String
  | .label => "label"
  | .instruction => "instruction"
  | .number => "number argument"
  | .string => "string argument"
  | .reference => "label argument"
  | .register => "register argument"

/-- The kinds of the tokens that stand for operands. -/
def TokenKind.isArgument : TokenKind → Bool
  | .label | .instruction => false
  | .number | .string | .reference | .register => true

/-- A token and the place of its first character, counted in characters from the start of the
text. -/
structure Token where
  kind : TokenKind
  value : String
  position : Nat
  deriving DecidableEq, Repr

/-- The wording shared by tokens and lexical errors. -/
def Token.describe (kind value : String) (position : Nat) : String :=
  s!"{kind} '{value}' (position {Decimal.ofNat position})"

/-- The token in messages. -/
def Token.text (token : Token) : String :=
  Token.describe token.kind.text token.value token.position

/-- What is wrong at the place where the lexer stops. -/
inductive LexFault
  | unexpectedSymbol
  | commentStart
  | labelEnd
  | number
  | registerMark
  | registerName
  | stringStart
  | unterminatedString
  | escape
  deriving DecidableEq, Repr

/-- The wording of a fault. -/
def LexFault.text : LexFault → String
  | .unexpectedSymbol => "unexpected symbol while lexing top-level"
  | .commentStart => "invalid start of comment (; expected)"
  | .labelEnd => "invalid end of label (: expected)"
  | .number => "invalid number"
  | .registerMark => "invalid register prefix (% expected)"
  | .registerName => "invalid symbol while lexing register"
  | .stringStart => "invalid start of string (\" expected)"
  | .unterminatedString => "unterminated string"
  | .escape => "invalid escape sequence"

/-- A lexical error: the fault, the character at which it shows, which is `none` at the end of
the text, and the place of that character. -/
structure LexError where
  fault : LexFault
  found : Option Char
  position : Nat
  deriving DecidableEq, Repr

namespace LexError

/-- The character at which the error shows. -/
def symbol (error : LexError) : String :=
  match error.found with
  | some c => Text.shownChar c
  | none => "EOF"

/-- The message of the error. -/
def message (error : LexError) : String :=
  s!"{error.fault.text}: {error.symbol} (position {Decimal.ofNat error.position})"

/-- The error in the wording of a token. -/
def text (error : LexError) : String :=
  Token.describe "error" error.message error.position

end LexError

end TickMachine
