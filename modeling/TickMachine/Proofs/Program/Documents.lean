import TickMachine.Proofs.Json.Variants
import TickMachine.Proofs.Program.DescriptorRoundTrip

/-! # What descriptors say

A descriptor before its text is chosen: its members in their order, the entries of its words with
their numbers of any size, and what stands beside them. It gives an executable when its start and
its program are there once and every entry gives a word; texts beside the numbers do not matter. -/

namespace TickMachine.Document

open Json

/-! ## Documents -/

/-- A member of the entry of a word. -/
inductive WordMember
  | raw (numbers : List Int)
  | formatted (text : Option String)
  | other (key : String) (unknown : key ≠ "raw" ∧ key ≠ "formatted") (note : Note)

/-- The entry of a word: a bare list of its numbers, or an object around it. -/
inductive Entry
  | bare (numbers : List Int)
  | annotated (members : List WordMember)

/-- A member of a descriptor. -/
inductive Member
  | start (value : Int)
  | program (entries : List Entry)
  | other (key : String) (unknown : key ≠ "start" ∧ key ≠ "program") (note : Note)

/-- The numbers in a member of an entry. -/
def WordMember.numbers? : WordMember → Option (List Int)
  | .raw numbers => some numbers
  | _ => none

/-- The text beside the numbers, which may be null. -/
def WordMember.text? : WordMember → Option (Option String)
  | .formatted text => some text
  | _ => none

/-- The lists of numbers in an entry. -/
def Entry.raws : Entry → List (List Int)
  | .bare numbers => [numbers]
  | .annotated members => members.filterMap WordMember.numbers?

/-- The texts beside the numbers of an entry. -/
def Entry.texts : Entry → List (Option String)
  | .bare _ => []
  | .annotated members => members.filterMap WordMember.text?

/-- The start in a member. -/
def Member.start? : Member → Option Int
  | .start value => some value
  | _ => none

/-- The entries in a member. -/
def Member.entries? : Member → Option (List Entry)
  | .program entries => some entries
  | _ => none

/-- All starts of a descriptor. -/
def starts (members : List Member) : List Int := members.filterMap Member.start?

/-- All programs of a descriptor. -/
def programs (members : List Member) : List (List Entry) := members.filterMap Member.entries?

/-! ## What they say -/

/-- The word with these numbers. -/
def wordOf? (numbers : List Int) : Option Word :=
  (numbers.mapM Decimal.toInt32?).bind Word.ofRaw?

/-- The word of an entry, which has one list of numbers and at most one text. -/
def Entry.word? (entry : Entry) : Option Word :=
  match entry.raws with
  | [numbers] => if entry.texts.length ≤ 1 then wordOf? numbers else none
  | _ => none

/-- The executable of a descriptor, which has one start and one program. -/
def executable? (members : List Member) : Option Executable :=
  match starts members, programs members with
  | [start], [entries] =>
    (Descriptor.address? start).bind fun start =>
      (entries.mapM Entry.word?).map fun program => { start, program }
  | _, _ => none

/-- The entry gives the numbers of a word, once, with at most one text beside them. -/
structure Entry.Describes (entry : Entry) (word : Word) : Prop where
  raw : entry.raws = [word.raw.map Int32.toInt]
  text : entry.texts.length ≤ 1

/-- The document gives the start and the words of an executable, once and in order. -/
structure Describes (members : List Member) (executable : Executable) : Prop where
  start : starts members = [(executable.start : Int)]
  program : ∃ entries, programs members = [entries] ∧
    List.Forall₂ Entry.Describes entries executable.program

/-- What may be wrong with an entry: a number that is no machine value, a list without numbers, and
no list or more than one. -/
inductive Entry.Defective (entry : Entry) : Prop
  | outside {numbers : List Int} {value : Int} (list : numbers ∈ entry.raws)
    (number : value ∈ numbers) (outside : value < -2147483648 ∨ 2147483647 < value)
  | empty (list : [] ∈ entry.raws)
  | missing (none : entry.raws = [])
  | repeated (several : 1 < entry.raws.length)

/-- What may be wrong with a document: a start that is no address, no start or program, more than one
of them, and a defective entry. -/
inductive Defective (members : List Member) : Prop
  | outside {value : Int} (start : value ∈ starts members)
    (outside : value < 0 ∨ 18446744073709551615 < value)
  | missingStart (none : starts members = [])
  | repeatedStart (several : 1 < (starts members).length)
  | missingProgram (none : programs members = [])
  | repeatedProgram (several : 1 < (programs members).length)
  | entry {entries : List Entry} {entry : Entry} (program : entries ∈ programs members)
    (member : entry ∈ entries) (defective : entry.Defective)

theorem wordOf?_raw (word : Word) : wordOf? (word.raw.map Int32.toInt) = some word.persisted := by
  have raw : (word.raw.map Int32.toInt).mapM Decimal.toInt32? = some word.raw :=
    mapM_map_back Decimal.toInt32?_toInt word.raw
  rw [wordOf?, raw, Option.bind_some, Word.ofRaw?_raw]

theorem Entry.Describes.word? {entry : Entry} {word : Word} (describes : entry.Describes word) :
    entry.word? = some word.persisted := by
  rw [Entry.word?, describes.raw]
  simp only [describes.text, if_true]
  exact wordOf?_raw word

theorem mapM_word? {entries : List Entry} {program : List Word}
    (each : List.Forall₂ Entry.Describes entries program) :
    entries.mapM Entry.word? = some (program.map Word.persisted) := by
  induction each with
  | nil => rfl
  | cons first others ih => exact mapM_cons_some first.word? ih

/-- A document gives the executable that it describes, in the persisted form. -/
theorem Describes.executable? {members : List Member} {executable : Executable}
    (describes : Describes members executable) (addressable : executable.start < UInt64.size) :
    Document.executable? members = some executable.persisted := by
  obtain ⟨entries, program, each⟩ := describes.program
  rw [Document.executable?, describes.start, program]
  simp only [Descriptor.address?_ofNat addressable, mapM_word? each]
  rfl

theorem toInt32?_outside {value : Int} (outside : value < -2147483648 ∨ 2147483647 < value) :
    Decimal.toInt32? value = none := by
  have least : Int32.minValue.toInt = -2147483648 := by decide
  have greatest : Int32.maxValue.toInt = 2147483647 := by decide
  rw [Decimal.toInt32?, least, greatest, if_neg (by omega)]

theorem address?_outside {value : Int} (outside : value < 0 ∨ 18446744073709551615 < value) :
    Descriptor.address? value = none := by
  have size : (UInt64.size : Int) = 18446744073709551616 := rfl
  rw [Descriptor.address?, size, if_neg (by omega)]

theorem wordOf?_outside {numbers : List Int} {value : Int} (number : value ∈ numbers)
    (outside : value < -2147483648 ∨ 2147483647 < value) : wordOf? numbers = none := by
  rw [wordOf?, mapM_eq_none number (toInt32?_outside outside)]
  rfl

theorem Entry.Defective.word? {entry : Entry} (defective : entry.Defective) :
    entry.word? = none := by
  unfold Entry.word?
  split
  · next numbers only =>
    have refused : wordOf? numbers = none := by
      cases defective with
      | outside list number outside =>
        rw [only, List.mem_singleton] at list
        subst list
        exact wordOf?_outside number outside
      | empty list =>
        rw [only, List.mem_singleton] at list
        subst list
        rfl
      | missing none =>
        rw [only] at none
        cases none
      | repeated several =>
        rw [only] at several
        exact absurd several (Nat.lt_irrefl 1)
    rw [refused, ite_self]
  · rfl

/-- A defective document gives no executable. -/
theorem Defective.executable? {members : List Member} (defective : Defective members) :
    Document.executable? members = none := by
  unfold Document.executable?
  split
  · next start entries starts programs =>
    cases defective with
    | outside member outside =>
      rw [starts, List.mem_singleton] at member
      subst member
      rw [address?_outside outside]
      rfl
    | missingStart none =>
      rw [starts] at none
      cases none
    | repeatedStart several =>
      rw [starts] at several
      exact absurd several (Nat.lt_irrefl 1)
    | missingProgram none =>
      rw [programs] at none
      cases none
    | repeatedProgram several =>
      rw [programs] at several
      exact absurd several (Nat.lt_irrefl 1)
    | entry program member defective =>
      rw [programs, List.mem_singleton] at program
      subst program
      rw [mapM_eq_none member defective.word?]
      cases Descriptor.address? start <;> rfl
  · rfl

end TickMachine.Document
