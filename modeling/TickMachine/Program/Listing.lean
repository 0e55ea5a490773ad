import TickMachine.Program.Disassembly
import TickMachine.Program.Executable
import TickMachine.Text.Padding

/-! # Listings

The listing of an executable names its start and shows one word a line, with its address. A word
without text is shown as the list of its numbers. -/

namespace TickMachine

/-- An address in a listing, of three digits at least. -/
def Listing.address (address : Nat) : String := Text.padLeft 3 '0' (Decimal.ofNat address)

/-- A word in a listing: its text, or its numbers in brackets when it has none. -/
def Listing.word (word : Word) : String :=
  match word.disassemble with
  | .ok text => text
  | .error _ => "[" ++ ", ".intercalate (word.raw.map Decimal.ofInt32) ++ "]"

/-- The line of the word at an address. -/
def Listing.line (address : Nat) (word : Word) : String :=
  Listing.address address ++ " " ++ Listing.word word

/-- The lines of the listing of an executable. -/
def Listing.lines (executable : Executable) : List String :=
  ("start: " ++ Listing.address executable.start) :: executable.program.mapIdx Listing.line

/-- The listing of an executable, each line with its end. -/
def Executable.listing (executable : Executable) : String :=
  String.join ((Listing.lines executable).map (· ++ "\n"))

end TickMachine
