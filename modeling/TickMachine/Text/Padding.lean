/-! # Padding

Texts of a least width. A text that is already wider is never cut. -/

namespace TickMachine.Text

/-- The text moved to the right end of a field, with `fill` in front. -/
def padLeft (width : Nat) (fill : Char) (text : String) : String :=
  String.ofList (List.replicate (width - text.length) fill) ++ text

/-- The text at the left end of a field, with `fill` behind. -/
def padRight (width : Nat) (fill : Char) (text : String) : String :=
  text ++ String.ofList (List.replicate (width - text.length) fill)

end TickMachine.Text
