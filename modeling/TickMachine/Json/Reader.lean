import TickMachine.Json.StringReader

/-! # Reading JSON

Readers take the text from where they start and answer what is behind the value. The first fault
from the left decides on the failure. Items of an array and members of an object are read by one
loop, which is given a budget of rounds; the length of the whole text is always enough, because a
round passes over at least one character. -/

namespace TickMachine.Json

/-- White space between the parts of a document. -/
def isBlank (c : Char) : Bool := c == ' ' || c == '\n' || c == '\t' || c == '\r'

/-- The text behind white space. -/
def skipBlank (text : List Char) : List Char := text.dropWhile isBlank

/-- Reads the rest of a keyword. -/
def keyword (expected : List Char) (text : List Char) : Except Failure (List Char) :=
  match expected, text with
  | [], rest => .ok rest
  | _ :: _, [] => .error .truncated
  | c :: expected, d :: rest => if c = d then keyword expected rest else .error .malformed

/-- Reads a value without parts. An array or an object in its place is a mismatch at once. -/
def scalar (care : Care) (text : List Char) : Except Failure (Value × List Char) :=
  match text with
  | [] => .error .truncated
  | 'n' :: rest => (keyword ['u', 'l', 'l'] rest).map fun rest => (.null, rest)
  | 't' :: rest => (keyword ['r', 'u', 'e'] rest).map fun rest => (.bool true, rest)
  | 'f' :: rest => (keyword ['a', 'l', 's', 'e'] rest).map fun rest => (.bool false, rest)
  | '"' :: rest => (stringBody care [] rest).map fun (found, rest) => (.string found, rest)
  | '[' :: _ => .error .mismatched
  | '\x7b' :: _ => .error .mismatched
  | c :: _ =>
    if c = '-' ∨ c.isDigit then (number care text).map fun (found, rest) => (.number found, rest)
    else .error .malformed

/-- The failure of a value that should have been an array or an object: a fault of the value itself
comes first. -/
def mismatch (text : List Char) : Failure :=
  match scalar .kept text with
  | .error failure => failure
  | .ok _ => .mismatched

/-- What follows in an array or an object. -/
inductive Next
  | closed (rest : List Char)
  | item (text : List Char)
  deriving DecidableEq, Repr

/-- Looks for the closing bracket or the next item, which has a comma in front unless it is the
first one. -/
def next (closing : Char) (first : Bool) (text : List Char) : Except Failure Next :=
  match skipBlank text with
  | [] => .error .truncated
  | c :: rest =>
    if c = closing then .ok (.closed rest)
    else if first then .ok (.item (c :: rest))
    else if c = ',' then
      match skipBlank rest with
      | [] => .error .truncated
      | d :: rest => if d = closing then .error .malformed else .ok (.item (d :: rest))
    else .error .malformed

/-- Reads items up to the closing bracket, each one into what has been collected so far. -/
def collect {α : Type} (closing : Char) (item : α → List Char → Except Failure (α × List Char)) :
    (budget : Nat) → (first : Bool) → α → List Char → Except Failure (α × List Char)
  | 0, _, _, _ => .error .truncated
  | budget + 1, first, found, text =>
    match next closing first text with
    | .error failure => .error failure
    | .ok (.closed rest) => .ok (found, rest)
    | .ok (.item text) =>
      match item found text with
      | .error failure => .error failure
      | .ok (found, rest) => collect closing item budget false found rest

/-- Reads an item in front of the items that have been read. -/
def push {α : Type} (item : List Char → Except Failure (α × List Char)) (found : List α)
    (text : List Char) : Except Failure (List α × List Char) :=
  (item text).map fun (value, rest) => (value :: found, rest)

/-- Reads the items of an array from behind its opening bracket. -/
def items {α : Type} (budget : Nat) (item : List Char → Except Failure (α × List Char))
    (text : List Char) : Except Failure (List α × List Char) :=
  (collect ']' (push item) budget true [] text).map fun (found, rest) => (found.reverse, rest)

/-- Reads the key of a member. -/
def key (care : Care) : List Char → Except Failure (String × List Char)
  | '"' :: rest => stringBody care [] rest
  | _ => .error .malformed

/-- Reads the colon behind a key. -/
def colon (text : List Char) : Except Failure (List Char) :=
  match skipBlank text with
  | [] => .error .truncated
  | ':' :: rest => .ok rest
  | _ => .error .malformed

/-- Reads a member of an object. -/
def member (care : Care) (item : List Char → Except Failure (Value × List Char))
    (text : List Char) : Except Failure ((String × Value) × List Char) := do
  let (name, rest) ← key care text
  let rest ← colon rest
  let (value, rest) ← item rest
  return ((name, value), rest)

/-- Reads the members of an object from behind its opening brace. -/
def members (care : Care) (budget : Nat) (item : List Char → Except Failure (Value × List Char))
    (text : List Char) : Except Failure (List (String × Value) × List Char) :=
  (collect '\x7d' (push (member care item)) budget true [] text).map fun (found, rest) =>
    (found.reverse, rest)

/-- Reads a value with at most `levels` arrays and objects inside each other. -/
def value (care : Care) (budget : Nat) (levels : Nat) (text : List Char) :
    Except Failure (Value × List Char) :=
  match skipBlank text, levels with
  | '[' :: _, 0 => .error .malformed
  | '\x7b' :: _, 0 => .error .malformed
  | '[' :: rest, levels + 1 =>
    (items budget (value care budget levels) rest).map fun (found, rest) => (.array found, rest)
  | '\x7b' :: rest, levels + 1 =>
    (members care budget (value care budget levels) rest).map fun (found, rest) =>
      (.object found, rest)
  | text, _ => scalar care text

/-- Passes over a value. -/
def skipValue (budget : Nat) (text : List Char) : Except Failure (List Char) :=
  (value .skipped budget budget text).map (·.2)

/-- Accepts nothing but white space behind a document. -/
def endOfText (text : List Char) : Except Failure Unit :=
  if skipBlank text = [] then .ok () else .error .malformed

/-- Reads an integer that has a representation. -/
def integer {α : Type} (represent : Int → Option α) (text : List Char) :
    Except Failure (α × List Char) := do
  let (found, rest) ← scalar .kept (skipBlank text)
  match found with
  | .number (.integer value) =>
    match represent value with
    | some value => return (value, rest)
    | none => .error .mismatched
  | _ => .error .mismatched

end TickMachine.Json
