/-! # Paths

A path names the directories on the way to a file, and the file last. -/

namespace TickMachine.CommandLine

/-- A directory that a path can pass: the one in which the program works, with no levels above it,
one of those around it, or the root. -/
inductive Place
  | above (levels : Nat)
  | root
  deriving DecidableEq, Repr

namespace Place

/-- The directory in which the program works. -/
def working : Place := above 0

/-- The directory around a directory. The root is its own. -/
def parent : Place → Place
  | above levels => above (levels + 1)
  | root => root

/-- The shortest path to what has a name in a directory. -/
def pathTo (name : String) : Place → String
  | above levels => String.join (List.replicate levels "../") ++ name
  | root => "/" ++ name

end Place

/-- A path: the directory where it begins, its parts, and whether a slash follows the last. -/
structure Path where
  start : Place
  parts : List String
  slashed : Bool
  deriving DecidableEq, Repr

namespace Path

/-- The pieces of a text before, between and after its slashes. -/
def pieces : List Char → List (List Char)
  | [] => [[]]
  | '/' :: rest => [] :: pieces rest
  | c :: rest =>
    match pieces rest with
    | [] => [[c]]
    | piece :: others => (c :: piece) :: others

/-- The path that a text spells. Slashes in a row count as one. -/
def ofString (text : String) : Path where
  start := if text.toList.head? = some '/' then .root else .working
  parts := ((pieces text.toList).filter (· ≠ [])).map String.ofList
  slashed := text.toList.getLast? = some '/'

/-- The most bytes that a path may have. -/
def maxBytes : Nat := 4095

/-- The most bytes that a part of a path may have. -/
def maxPartBytes : Nat := 255

end Path

end TickMachine.CommandLine
