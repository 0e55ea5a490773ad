import TickMachine.Json.Printer
import TickMachine.Proofs.Json.Lists

/-! # The printer's layout

The printer puts every part between brackets on a line of its own. In the terms of the reader, the
line breaks and the indentation are the white space around the parts. -/

namespace TickMachine.Json

/-- The line break and the indentation at a depth. -/
def indentation (depth : Nat) : List Char := '\n' :: List.replicate (2 * depth) ' '

/-- Texts on lines of their own one level below the given depth. The line break behind the last one
leads back to the given depth. -/
def laidOut (depth : Nat) : List (List Char) → List Part
  | [] => []
  | [text] => [⟨indentation (depth + 1), text, indentation depth⟩]
  | text :: texts => ⟨indentation (depth + 1), text, []⟩ :: laidOut depth texts

theorem blank_indentation (depth : Nat) : Blank (indentation depth) := by
  intro c member
  rcases List.mem_cons.1 member with rfl | spaces
  · rfl
  · obtain rfl := List.eq_of_mem_replicate spaces
    rfl

theorem laidOut_text (depth : Nat) (texts : List (List Char)) :
    (laidOut depth texts).map Part.text = texts := by
  induction texts with
  | nil => rfl
  | cons text texts ih =>
    cases texts with
    | nil => rfl
    | cons _ _ => rw [laidOut, List.map_cons, ih]; simp

/-- A source laid out as a part of a list is no longer than the list. -/
theorem length_spell_le {β : Type} (spell : β → List Char) (depth : Nat) {source : β}
    {sources : List β} (member : source ∈ sources) :
    (spell source).length ≤ (listed (laidOut depth (sources.map spell))).length := by
  have among : spell source ∈ (laidOut depth (sources.map spell)).map Part.text := by
    rw [laidOut_text]
    exact List.mem_map_of_mem member
  obtain ⟨part, among, same⟩ := List.mem_map.1 among
  rw [← same]
  exact text_le_listed among

/-- The layout of texts that can be told from white space and from the closing bracket. -/
theorem laidOut_plain (depth : Nat) {closing : Char} {texts : List (List Char)}
    (start : ∀ text ∈ texts, ∃ c rest, text = c :: rest ∧ isBlank c = false ∧ c ≠ closing) :
    ∀ part ∈ laidOut depth texts, part.Plain closing := by
  induction texts with
  | nil =>
    intro part member
    exact absurd member List.not_mem_nil
  | cons text texts ih =>
    have first := start text List.mem_cons_self
    have others := ih fun other member => start other (List.mem_cons_of_mem _ member)
    cases texts with
    | nil =>
      intro part member
      obtain rfl := List.mem_singleton.1 member
      exact ⟨blank_indentation _, blank_indentation _, first⟩
    | cons _ _ =>
      intro part member
      rcases List.mem_cons.1 member with rfl | member
      · exact ⟨blank_indentation _, blank_nil, first⟩
      · exact others part member

theorem listed_laidOut (depth : Nat) (text : List Char) (texts : List (List Char)) :
    listed (laidOut depth (text :: texts)) =
      indentation (depth + 1) ++
        (',' :: indentation (depth + 1)).intercalate (text :: texts) ++ indentation depth := by
  induction texts generalizing text with
  | nil => simp [laidOut, listed, followers, Part.full]
  | cons next texts ih =>
    have behind : followers (laidOut depth (next :: texts)) =
        ',' :: listed (laidOut depth (next :: texts)) := by
      cases texts <;> rfl
    rw [laidOut, listed, behind, ih, List.intercalate_cons_cons]
    · simp [Part.full]
    · exact List.cons_ne_nil _ _

theorem indentation_succ (depth : Nat) :
    indentation (depth + 1) = indentation depth ++ [' ', ' '] := by
  rw [indentation, Nat.mul_add, ← List.replicate_append_replicate]
  rfl

theorem block_toList (opening closing : String) (depth : Nat) (parts : List String) :
    (block opening closing depth parts).toList =
      opening.toList ++ listed (laidOut depth (parts.map String.toList)) ++ closing.toList := by
  cases parts with
  | nil => simp [block, laidOut, listed]
  | cons part parts =>
    rw [block, if_neg (List.cons_ne_nil _ _)]
    rw [List.map_cons, listed_laidOut, indentation_succ]
    simp [String.toList_intercalate, indentation]

end TickMachine.Json
