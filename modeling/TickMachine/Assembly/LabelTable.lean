import TickMachine.Assembly.Error

/-! # Label tables

The addresses of labels, in the order in which the labels were entered. The first definition of a
label stands, and a second one is an error. -/

namespace TickMachine

/-- Labels and their addresses, the first one entered in front. -/
structure LabelTable where
  entries : List (String × Nat) := []
  deriving DecidableEq, Repr, Inhabited

namespace LabelTable

/-- The table without labels. -/
def empty : LabelTable := {}

/-- The number of labels. -/
def size (table : LabelTable) : Nat := table.entries.length

/-- Whether the table has no labels. -/
def isEmpty (table : LabelTable) : Bool := table.entries.isEmpty

/-- The address of a label. -/
def find? (table : LabelTable) (label : String) : Option Nat := table.entries.lookup label

/-- The address of a label that is expected to be there. -/
def address (table : LabelTable) (label : String) : Except AssemblyError Nat :=
  match table.find? label with
  | some address => .ok address
  | none => .error (.undefinedLabel label)

/-- The table with one more label. -/
def insert (table : LabelTable) (label : String) (address : Nat) :
    Except AssemblyError LabelTable :=
  if (table.find? label).isSome then .error (.labelRedefinition label)
  else .ok ⟨table.entries ++ [(label, address)]⟩

/-- The addresses that carry a label, in ascending order and each one once. -/
def addresses (table : LabelTable) : List Nat :=
  (table.entries.map (·.2)).eraseDups.mergeSort

/-- The labels of an address, sorted by the codes of their characters. -/
def labelsAt (table : LabelTable) (address : Nat) : List String :=
  ((table.entries.filter (·.2 == address)).map (·.1)).mergeSort fun a b => decide (a ≤ b)

/-- The labels grouped by address. -/
def byAddress (table : LabelTable) : List (Nat × List String) :=
  table.addresses.map fun address => (address, table.labelsAt address)

end LabelTable

end TickMachine
