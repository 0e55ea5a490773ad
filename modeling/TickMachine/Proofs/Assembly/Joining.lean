import TickMachine.Proofs.Assembly.Respelling
import TickMachine.Proofs.Assembly.SecondPass
import TickMachine.Proofs.Source.Course

/-! # Joined tokens

A first pass over the tokens of two programs, one behind the other. No item of the program in front
takes in a token of the program behind it, and the items of the latter do not depend on where their
tokens stand. So the drafts are joined: the words one behind the other, and the labels of the second
draft moved by the number of words of the first one. -/

namespace TickMachine

/-! ## Joined tables -/

namespace LabelTable

/-- The labels of a program that stands further behind. -/
def moved (distance : Nat) (table : LabelTable) : LabelTable :=
  ⟨table.entries.map fun (name, address) => (name, address + distance)⟩

/-- The labels of two programs. -/
def join (front back : LabelTable) : LabelTable := ⟨front.entries ++ back.entries⟩

theorem find?_moved (distance : Nat) (table : LabelTable) (name : String) :
    (table.moved distance).find? name = (table.find? name).map (· + distance) := by
  obtain ⟨entries⟩ := table
  unfold moved find?
  induction entries with
  | nil => rfl
  | cons entry entries ih =>
    rw [List.map_cons, List.lookup_cons, List.lookup_cons, ih]
    cases name == entry.1 <;> rfl

theorem find?_join (front back : LabelTable) (name : String) :
    (front.join back).find? name = (front.find? name).or (back.find? name) :=
  List.lookup_append

/-- A label that the table in front does not have is entered behind it. -/
theorem insert_join {front back larger : LabelTable} {name : String} {address : Nat}
    (distance : Nat) (fresh : front.find? name = none)
    (inserted : back.insert name address = .ok larger) :
    (front.join (back.moved distance)).insert name (address + distance) =
      .ok (front.join (larger.moved distance)) := by
  obtain ⟨missing, rfl⟩ := insert_ok inserted
  have absent : (front.join (back.moved distance)).find? name = none := by
    rw [find?_join, find?_moved, fresh, missing]
    rfl
  rw [insert, absent]
  simp [join, moved]

end LabelTable

/-! ## Joined drafts -/

namespace Draft

/-- A draft with another one behind it. -/
def join (front back : Draft) : Draft where
  words := front.words ++ back.words
  labels := front.labels.join (back.labels.moved front.words.size)

variable {front back middle last : Draft} {item : Item} {items : List Item}

theorem join_empty (front : Draft) : front.join .empty = front := by
  obtain ⟨words, ⟨entries⟩⟩ := front
  simp [join, empty, LabelTable.join, LabelTable.moved]

theorem append_appendList {α : Type} (left middle : Array α) (right : List α) :
    left ++ middle ++ right = left ++ (middle ++ right) := by
  apply Array.toList_inj.1
  simp only [Array.toList_append, Array.toList_appendList, List.append_assoc]

/-- An item is added to a draft with another one in front as it is added to the draft alone. -/
theorem add_join (fresh : ∀ name, item = .label name → front.labels.find? name = none)
    (added : back.add item = .ok middle) : (front.join back).add item = .ok (front.join middle) := by
  cases item with
  | label name =>
    rw [add] at added
    split at added
    · cases added
    · next labels inserted =>
      cases added
      have place : (front.join back).words.size = back.words.size + front.words.size := by
        rw [join, Array.size_append, Nat.add_comm]
      have entered := LabelTable.insert_join front.words.size (fresh name rfl) inserted
      rw [add, place]
      simp only [join, entered]
  | instruction op operands | data arguments =>
    cases added
    simp only [add, join, append_appendList]

theorem adds_join (apart : ∀ name, front.labels.find? name = none ∨ last.labels.find? name = none)
    (adds : Adds back items last) : Adds (front.join back) items (front.join last) := by
  induction adds with
  | nil draft => exact .nil _
  | cons first others ih =>
    refine .cons (add_join ?_ first) (ih apart)
    rintro name rfl
    refine (apart name).resolve_right fun missing => ?_
    rw [kept_of_adds others ((added_of_ok first).entered name rfl)] at missing
    cases missing

end Draft

/-! ## Reading in front of other tokens -/

section

variable {rest : List Token}

theorem readOperands_append {op : Op} {kinds : List OperandKind} {tokens : List Token}
    {operands : List Operand} (read : Item.readOperands op kinds tokens = .ok (operands, [])) :
    Item.readOperands op kinds (tokens ++ rest) = .ok (operands, rest) := by
  induction kinds generalizing tokens operands with
  | nil =>
    rw [Item.readOperands] at read ⊢
    cases read
    rfl
  | cons kind kinds ih =>
    obtain ⟨token, behind, operand, others, rfl, readFirst, readOthers, rfl⟩ :=
      Item.readOperands_cons_ok read
    rw [List.cons_append, Item.readOperands, readFirst, ih readOthers]

theorem ne_nil_of_readData {tokens rest : List Token} {found : List Datum}
    (read : Item.readData tokens = .ok (found, rest)) : tokens ≠ [] := by
  rintro rfl
  cases read

/-- An item is read from its part in front of everything that is no argument. -/
theorem read_of_gives {part : Part} {item : Item} (gives : part.Gives item)
    (ends : Text.Ends Token.isArgument rest) :
    Item.read part.head (part.arguments ++ rest) = .ok (item, rest) := by
  unfold Item.read
  cases form_of_gives gives with
  | label kind bare => simp only [kind, bare, List.nil_append]
  | data kind data read =>
    obtain ⟨arguments, readAll⟩ := readData_all read
    have data : Text.sameFolded part.head.value dataMnemonic = true := data
    have found :=
      Item.readData_of_all (ne_nil_of_readData read) arguments readAll (Item.ends_isDatum ends)
    simp only [kind, data, if_true, found]
  | instruction kind command named read =>
    have command : Text.sameFolded part.head.value dataMnemonic = false := command
    simp only [kind, command, Bool.false_eq_true, if_false, named, readOperands_append read]

end

/-! ## Tokens that stand further behind -/

section

variable {distance : Nat}

/-- The part of a text that stands further behind. -/
def Part.moved (distance : Nat) (part : Part) : Part :=
  ⟨part.head.moved distance, part.arguments.map (Token.moved distance)⟩

theorem respelled_moved (token : Token) : token.Respelled Eq (token.moved distance) := by
  obtain ⟨kind, value, position⟩ := token
  refine ⟨rfl, ?_⟩
  cases kind with
  | label | reference | number | string => rfl
  | instruction | register => exact beq_self_eq_true _

/-- The positions of the tokens do not matter to the item. -/
theorem gives_moved {part : Part} {item : Item} (gives : part.Gives item) :
    (part.moved distance).Gives item := by
  have arguments : List.Forall₂ (Token.Respelled Eq) part.arguments (part.moved distance).arguments :=
    List.forall₂_map_right_iff.2 (List.forall₂_same.2 fun token _ => respelled_moved token)
  unfold Part.Gives at gives ⊢
  rcases (Item.read_alike (respelled_moved part.head) arguments).cases with
    ⟨⟨found, rest⟩, ⟨found', rest'⟩, read, read', same, behind⟩ | ⟨_, _, refused, -⟩
  · rw [read] at gives
    cases gives
    obtain rfl : item = found' := same.eq
    obtain rfl : rest' = [] := List.forall₂_nil_left_iff.1 behind
    exact read'
  · rw [refused] at gives
    cases gives

theorem isArgument_moved : Token.isArgument ∘ Token.moved distance = Token.isArgument := rfl

theorem parts_moved (tokens : List Token) :
    parts (tokens.map (Token.moved distance)) = (parts tokens).map (Part.moved distance) := by
  fun_induction parts tokens with
  | case1 => exact parts_nil
  | case2 token tokens ih =>
    rw [List.map_cons, parts, List.takeWhile_map, List.dropWhile_map, isArgument_moved, ih]
    rfl

theorem Read.moved {parts : List Part} {items : List Item} (read : Read parts items) :
    Read (parts.map (Part.moved distance)) items := by
  induction read with
  | nil => exact .nil
  | cons first others ih => exact .cons (gives_moved first) ih

theorem ends_moved {tokens : List Token} (ends : Text.Ends Token.isArgument tokens) :
    Text.Ends Token.isArgument (tokens.map (Token.moved distance)) := by
  cases tokens with
  | nil => exact Text.ends_nil
  | cons token tokens => exact Text.ends_cons (ends token rfl)

end

/-! ## The first pass over joined tokens -/

theorem parts_append (front : List Token) {back : List Token}
    (ends : Text.Ends Token.isArgument back) : parts (front ++ back) = parts front ++ parts back := by
  fun_induction parts front with
  | case1 => rfl
  | case2 token tokens ih =>
    obtain ⟨used, rest, rfl, arguments, behind⟩ := Text.exists_span Token.isArgument tokens
    have outside : Text.Ends Token.isArgument (rest ++ back) := by
      cases rest with
      | nil => exact ends
      | cons first others => exact Text.ends_cons (behind first rfl)
    rw [Text.dropWhile_span arguments behind] at ih
    rw [Text.takeWhile_span arguments behind, Text.dropWhile_span arguments behind,
      List.cons_append, List.append_assoc, parts_cons arguments outside, ih, List.cons_append]

theorem Read.append {front back : List Part} {items others : List Item} (first : Read front items)
    (second : Read back others) : Read (front ++ back) (items ++ others) := by
  induction first with
  | nil => exact second
  | cons gives _ ih => exact .cons gives ih

/-- A first pass reads the items of the parts and adds them in their order. -/
theorem extend_of_read {draft last : Draft} {tokens : List Token} {items : List Item}
    (read : Read (parts tokens) items) (adds : Draft.Adds draft items last) :
    draft.extend tokens = (last.labels, .ok last) := by
  fun_induction parts tokens generalizing draft items with
  | case1 =>
    cases read
    cases adds
    exact Draft.extend_nil _
  | case2 token tokens ih =>
    obtain _ | ⟨gives, others⟩ := read
    obtain _ | ⟨added, addsOthers⟩ := adds
    obtain ⟨used, rest, rfl, arguments, ends⟩ := Text.exists_span Token.isArgument tokens
    rw [Text.takeWhile_span arguments ends] at gives
    rw [Text.dropWhile_span arguments ends] at ih others
    rw [Draft.extend_cons (read_of_gives gives ends) added, ih others addsOthers]

/-- A first pass over the tokens of two programs joins their drafts. -/
theorem extend_append {front back : List Token} {items others : List Item} {draft last : Draft}
    (distance : Nat) (readFront : Read (parts front) items)
    (addsFront : Draft.Adds .empty items draft) (readBack : Read (parts back) others)
    (addsBack : Draft.Adds .empty others last) (ends : Text.Ends Token.isArgument back)
    (apart : ∀ name, draft.labels.find? name = none ∨ last.labels.find? name = none) :
    Draft.empty.extend (front ++ back.map (Token.moved distance)) =
      ((draft.join last).labels, .ok (draft.join last)) := by
  have read : Read (parts (front ++ back.map (Token.moved distance))) (items ++ others) := by
    rw [parts_append front (ends_moved ends), parts_moved]
    exact readFront.append readBack.moved
  have adds := Draft.adds_join apart addsBack
  rw [Draft.join_empty] at adds
  exact extend_of_read read (addsFront.append adds)

end TickMachine
