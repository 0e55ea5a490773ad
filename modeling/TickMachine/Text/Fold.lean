/-! # Comparison without regard to case

Names are compared without regard to the case of ASCII letters; every other character, accented
letters included, has to be the same. -/

namespace TickMachine.Text

/-- The text with its ASCII letters in lower case. -/
def foldCase (text : String) : List Char := text.toList.map Char.toLower

/-- Whether two texts differ at most in the case of ASCII letters. -/
def sameFolded (left right : String) : Bool := foldCase left == foldCase right

end TickMachine.Text
