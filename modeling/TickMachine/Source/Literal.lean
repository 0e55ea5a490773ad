import TickMachine.Source.Token

/-! # String literals

The inside of a quoted string. A backslash introduces one of five escapes; every other character
up to the closing quote, line ends included, stands for itself. -/

namespace TickMachine.Literal

/-- The character that an escape stands for. -/
def unescape? : Char → Option Char
  | 'n' => some '\n'
  | 't' => some '\t'
  | '0' => some '\x00'
  | '\\' => some '\\'
  | '"' => some '"'
  | _ => none

/-- How a literal ends: with its value, or with a fault. `used` counts the characters up to the
closing quote, itself included, or up to the character at fault. -/
inductive Scan
  | closed (value : List Char) (used : Nat)
  | faulty (fault : LexFault) (used : Nat)
  deriving DecidableEq, Repr

/-- The number of characters that a literal passes over. -/
def Scan.used : Scan → Nat
  | .closed _ used => used
  | .faulty _ used => used

/-- Reads a literal from behind its opening quote. `value` holds the characters read so far, the
last one first, and `used` counts the characters passed so far. -/
def scan (value : List Char) (used : Nat) : List Char → Scan
  | [] => .faulty .unterminatedString used
  | '"' :: _ => .closed value.reverse (used + 1)
  | ['\\'] => .faulty .escape (used + 1)
  | '\\' :: c :: rest =>
    match unescape? c with
    | some meant => scan (meant :: value) (used + 2) rest
    | none => .faulty .escape (used + 1)
  | c :: rest => scan (c :: value) (used + 1) rest

theorem scan_used_le (value : List Char) (used : Nat) (text : List Char) :
    (scan value used text).used ≤ used + text.length := by
  fun_induction scan value used text <;> simp_all only [Scan.used, List.length_cons] <;> omega

theorem le_scan_used (value : List Char) (used : Nat) (text : List Char) :
    used ≤ (scan value used text).used := by
  fun_induction scan value used text <;> simp_all only [Scan.used] <;> omega

end TickMachine.Literal
