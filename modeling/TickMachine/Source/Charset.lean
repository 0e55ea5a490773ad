/-! # Characters of assembly text

The classes of characters on which the lexer decides. All of them are ASCII: any other character
is text only inside strings and comments. -/

namespace TickMachine.Charset

/-- The first character of an identifier. -/
def isStart (c : Char) : Bool := c.isAlpha || c == '_'

/-- A character of an identifier. -/
def isSymbol (c : Char) : Bool := c.isAlphanum || c == '_'

/-- White space that does not end a line. -/
def isBlank (c : Char) : Bool := c == ' ' || c == '\t' || c == '\r'

/-- White space, line ends included. -/
def isSpace (c : Char) : Bool := isBlank c || c == '\n'

/-- The sign of a number. -/
def isSign (c : Char) : Bool := c == '+' || c == '-'

end TickMachine.Charset
