/-! # Spans

Readers pass over the characters or tokens of a class up to the first one outside it. A text that
does not start with one of the class ends every span that stands in front of it. -/

namespace TickMachine.Text

/-- Whether a text ends the span of a class: it is empty or starts outside the class. -/
def Ends {α : Type} (p : α → Bool) (text : List α) : Prop := ∀ c ∈ text.head?, p c = false

variable {α : Type} {p : α → Bool}

@[simp] theorem ends_nil : Ends p [] := by
  intro c head
  cases head

theorem ends_cons {c : α} {text : List α} (h : p c = false) : Ends p (c :: text) := by
  intro d head
  obtain rfl : c = d := by simpa using head
  exact h

theorem inside_nil : ∀ c ∈ ([] : List α), p c = true :=
  fun _ member => absurd member List.not_mem_nil

theorem takeWhile_span {span rest : List α} (inside : ∀ c ∈ span, p c = true)
    (ends : Ends p rest) : (span ++ rest).takeWhile p = span := by
  rw [List.takeWhile_append_of_pos inside]
  cases rest with
  | nil => simp
  | cons c rest => simp [ends c rfl]

theorem dropWhile_span {span rest : List α} (inside : ∀ c ∈ span, p c = true)
    (ends : Ends p rest) : (span ++ rest).dropWhile p = rest := by
  rw [List.dropWhile_append_of_pos inside]
  cases rest with
  | nil => simp
  | cons c rest => simp [ends c rfl]

/-- Every text starts with a span of a class and goes on with what ends it. -/
theorem exists_span (p : α → Bool) (text : List α) :
    ∃ span rest, text = span ++ rest ∧ (∀ c ∈ span, p c = true) ∧ Ends p rest := by
  refine ⟨text.takeWhile p, text.dropWhile p, List.takeWhile_append_dropWhile.symm,
    List.all_eq_true.1 List.all_takeWhile, ?_⟩
  intro c head
  have outside := List.head?_dropWhile_not p text
  rw [Option.mem_def.1 head] at outside
  simpa using outside

end TickMachine.Text
