import TickMachine.Proofs.Text.Decimal
import TickMachine.Text.Padding

/-! # Words

Blanks and equals signs stand between the words of a text. How many there are does not matter, so
a number has the same words whatever the blanks are with which it is padded. -/

namespace TickMachine

namespace Text

/-- The characters between words. -/
def isGap (c : Char) : Bool := c == ' ' || c == '='

/-- The words of a text. -/
def words (text : String) : List String :=
  ((text.toList.splitOnP isGap).filter (· ≠ [])).map String.ofList

/-- A text that is a single word. -/
structure IsWord (text : String) : Prop where
  filled : text ≠ ""
  plain : ∀ c ∈ text.toList, isGap c = false

theorem isWord_of_any {text : String} (filled : text ≠ "") (plain : text.toList.any isGap = false) :
    IsWord text :=
  ⟨filled, fun c member => Bool.eq_false_iff.2 (List.any_eq_false.1 plain c member)⟩

theorem words_of_isWord {text : String} (word : IsWord text) : words text = [text] := by
  have filled : text.toList ≠ [] := fun nothing => word.filled (String.toList_eq_nil_iff.1 nothing)
  rw [words, List.splitOnP_eq_singleton word.plain]
  simp [filled]

theorem IsWord.append {left right : String} (first : IsWord left) (second : IsWord right) :
    IsWord (left ++ right) where
  filled := by
    intro nothing
    exact first.filled (String.append_eq_empty_iff.1 nothing).1
  plain := by
    intro c member
    rw [String.toList_append, List.mem_append] at member
    rcases member with inside | inside
    · exact first.plain c inside
    · exact second.plain c inside

/-! ## Words on both sides of a gap -/

theorem words_append {gap : String} {c : Char} (one : gap.toList = [c]) (between : isGap c = true)
    (left right : String) : words (left ++ gap ++ right) = words left ++ words right := by
  have text : (left ++ gap ++ right).toList = left.toList ++ c :: right.toList := by
    rw [String.toList_append, String.toList_append, one, List.append_assoc]
    rfl
  rw [words, text, List.splitOnP_append_cons _ _ between, List.filter_append, List.map_append]
  rfl

theorem words_blank (left right : String) :
    words (left ++ " " ++ right) = words left ++ words right :=
  words_append (c := ' ') rfl rfl left right

theorem words_equals (left right : String) :
    words (left ++ "=" ++ right) = words left ++ words right :=
  words_append (c := '=') rfl rfl left right

theorem words_intercalate (texts : List String) :
    words (" ".intercalate texts) = texts.flatMap words := by
  induction texts with
  | nil => rfl
  | cons text texts ih =>
    cases texts with
    | nil => simp
    | cons next texts =>
      rw [String.intercalate_cons_cons, words_blank, ih]
      rfl

/-- Blanks in front of a text do not matter. -/
theorem words_padLeft (width : Nat) (text : String) :
    words (padLeft width ' ' text) = words text := by
  rw [padLeft]
  induction width - text.length with
  | zero => simp
  | succ blanks ih =>
    have first : String.ofList (List.replicate (blanks + 1) ' ') ++ text =
        "" ++ " " ++ (String.ofList (List.replicate blanks ' ') ++ text) := by
      apply String.toList_inj.1
      simp [List.replicate_succ]
    rw [first, words_blank, ih]
    rfl

/-- Gaps lie outside of every class that has neither of them. -/
theorem isGap_of_inside {p : Char → Bool} (blank : p ' ' = false) (equals : p '=' = false)
    {c : Char} (inside : p c = true) : isGap c = false := by
  rw [Bool.eq_false_iff]
  intro gap
  simp only [isGap, Bool.or_eq_true, beq_iff_eq] at gap
  rcases gap with rfl | rfl
  · rw [blank] at inside
    cases inside
  · rw [equals] at inside
    cases inside

end Text

/-! ## Numbers -/

theorem isWord_ofNat (n : Nat) : Text.IsWord (Decimal.ofNat n) where
  filled := Decimal.ofNat_ne_empty n
  plain := by
    intro c member
    rw [Decimal.toList_ofNat] at member
    exact Text.isGap_of_inside rfl rfl (Decimal.isDigit_of_mem member)

theorem isWord_ofInt32 (value : Int32) : Text.IsWord (Decimal.ofInt32 value) where
  filled := Decimal.ofInt32_ne_empty value
  plain := by
    intro c member
    rcases Decimal.sign_or_digit_of_mem member with rfl | digit
    · rfl
    · exact Text.isGap_of_inside rfl rfl digit

end TickMachine
