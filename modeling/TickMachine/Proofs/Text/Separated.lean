import TickMachine.Proofs.Results
import TickMachine.Proofs.Text.Decimal

/-! # Items between separators

A list is written with a comma and a blank between one item and the next. Splitting the text at
these separators finds the items again, as long as no item is empty or holds a comma. -/

namespace TickMachine

namespace Text

/-- The parts of a text between its separators, a comma and a blank each. -/
def separated : List Char → List (List Char)
  | [] => [[]]
  | ',' :: ' ' :: rest => [] :: separated rest
  | c :: rest => (separated rest).modifyHead (c :: ·)

/-- The items of a text. A text without characters has none. -/
def items (text : String) : List (List Char) :=
  if text = "" then [] else separated text.toList

/-- A text that can stand as an item between separators. -/
structure IsItem (text : String) : Prop where
  filled : text ≠ ""
  plain : ',' ∉ text.toList

theorem separated_cons {c : Char} (other : c ≠ ',') (rest : List Char) :
    separated (c :: rest) = (separated rest).modifyHead (c :: ·) := by
  rw [separated]
  exact fun _ comma _ => other comma

theorem separated_plain {item : List Char} (plain : ',' ∉ item) : separated item = [item] := by
  induction item with
  | nil => rfl
  | cons c item ih =>
    rw [List.mem_cons, not_or] at plain
    rw [separated_cons (Ne.symm plain.1), ih plain.2]
    rfl

theorem separated_append {item : List Char} (plain : ',' ∉ item) (rest : List Char) :
    separated (item ++ ',' :: ' ' :: rest) = item :: separated rest := by
  induction item with
  | nil => rfl
  | cons c item ih =>
    rw [List.mem_cons, not_or] at plain
    rw [List.cons_append, separated_cons (Ne.symm plain.1), ih plain.2]
    rfl

theorem separated_intercalate {items : List (List Char)} (present : items ≠ [])
    (plain : ∀ item ∈ items, ',' ∉ item) :
    separated ([',', ' '].intercalate items) = items := by
  induction items with
  | nil => contradiction
  | cons item items ih =>
    have first := plain item List.mem_cons_self
    cases items with
    | nil => rw [List.intercalate_singleton, separated_plain first]
    | cons next items =>
      have others := ih (List.cons_ne_nil _ _) fun item among =>
        plain item (List.mem_cons_of_mem _ among)
      rw [List.intercalate_cons_cons, List.append_assoc]
      exact (separated_append first _).trans (congrArg _ others)

/-- The items of a list are found again in its text. -/
theorem items_intercalate {texts : List String} (each : ∀ text ∈ texts, IsItem text) :
    items (", ".intercalate texts) = texts.map String.toList := by
  cases texts with
  | nil => rfl
  | cons text texts =>
    have present : ", ".intercalate (text :: texts) ≠ "" := by
      intro nothing
      have first := (each text List.mem_cons_self).filled
      cases texts with
      | nil => exact first (by simpa using nothing)
      | cons next texts =>
        rw [String.intercalate_cons_cons] at nothing
        simp [String.append_eq_empty_iff] at nothing
    have plain : ∀ item ∈ (text :: texts).map String.toList, ',' ∉ item := by
      intro item among
      obtain ⟨text, member, rfl⟩ := List.mem_map.1 among
      exact (each text member).plain
    rw [items, if_neg present, String.toList_intercalate]
    exact separated_intercalate (List.cons_ne_nil _ _) plain

/-! ## Lists -/

/-- The list that a text has, each of its items read by itself. -/
def listOf? {α : Type} (read : List Char → Option α) (text : String) : Option (List α) :=
  (items text).mapM read

section

variable {α : Type} {write : α → String} (item : ∀ a, IsItem (write a))

include item

theorem items_map (list : List α) :
    items (", ".intercalate (list.map write)) = list.map (String.toList ∘ write) := by
  rw [items_intercalate (List.forall_mem_map.2 fun a _ => item a), List.map_map]

/-- A list is read in its order where each item can be read. -/
theorem listOf?_intercalate {read : List Char → Option α}
    (back : ∀ a, read (write a).toList = some a) (list : List α) :
    listOf? read (", ".intercalate (list.map write)) = some list := by
  rw [listOf?, items_map item]
  exact mapM_map_back back list

/-- Only the list without items has the text without characters. -/
theorem intercalate_eq_empty_iff (list : List α) :
    ", ".intercalate (list.map write) = "" ↔ list = [] := by
  constructor
  · intro nothing
    have none : [] = list.map (String.toList ∘ write) := by
      rw [← items_map item, nothing]
      rfl
    exact List.map_eq_nil_iff.1 none.symm
  · rintro rfl
    rfl

end

end Text

/-! ## Numbers -/

theorem isItem_ofNat (n : Nat) : Text.IsItem (Decimal.ofNat n) where
  filled := Decimal.ofNat_ne_empty n
  plain := by
    intro comma
    rw [Decimal.toList_ofNat] at comma
    cases Decimal.isDigit_of_mem comma

theorem isItem_ofInt32 (value : Int32) : Text.IsItem (Decimal.ofInt32 value) where
  filled := Decimal.ofInt32_ne_empty value
  plain := by
    intro comma
    rcases Decimal.sign_or_digit_of_mem comma with sign | digit
    · cases sign
    · cases digit

end TickMachine
