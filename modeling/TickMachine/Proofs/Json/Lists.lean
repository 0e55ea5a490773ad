import TickMachine.Json.Reader
import TickMachine.Proofs.Json.Numbers
import TickMachine.Proofs.Results

/-! # Lists in JSON text

The items of an array and the members of an object stand between commas, with white space around
each of them. When every part is read by itself, up to the first character that does not belong to
it, then the loop of the reader gathers all parts and stops behind the closing bracket, unless it is
stopped by the first part that is refused. -/

namespace TickMachine.Json

/-- White space. -/
def Blank (text : List Char) : Prop := ∀ c ∈ text, isBlank c = true

theorem blank_nil : Blank [] := fun _ member => absurd member List.not_mem_nil

theorem skipBlank_append {blank text : List Char} (white : Blank blank)
    (ends : Text.Ends isBlank text) : skipBlank (blank ++ text) = text :=
  Text.dropWhile_span white ends

theorem skipBlank_blank {blank : List Char} (white : Blank blank) : skipBlank blank = [] := by
  have skipped := skipBlank_append white Text.ends_nil
  rwa [List.append_nil] at skipped

/-- A part of a list, with the white space around it. -/
structure Part where
  before : List Char
  text : List Char
  after : List Char

namespace Part

/-- The characters of a part. -/
def full (part : Part) : List Char := part.before ++ part.text ++ part.after

/-- A part whose text can be told from white space and from a closing bracket. -/
structure Plain (closing : Char) (part : Part) : Prop where
  before : Blank part.before
  after : Blank part.after
  start : ∃ c rest, part.text = c :: rest ∧ isBlank c = false ∧ c ≠ closing

end Part

/-- The parts behind another part. -/
def followers : List Part → List Char
  | [] => []
  | part :: parts => ',' :: (part.full ++ followers parts)

/-- The parts between the brackets of a list. -/
def listed : List Part → List Char
  | [] => []
  | part :: parts => part.full ++ followers parts

theorem length_followers (parts : List Part) : parts.length ≤ (followers parts).length := by
  induction parts with
  | nil => exact Nat.le_refl _
  | cons part parts ih =>
    simp only [followers, List.length_cons, List.length_append]
    omega

theorem length_listed (parts : List Part) : parts.length ≤ (listed parts).length + 1 := by
  cases parts with
  | nil => exact Nat.zero_le _
  | cons part parts =>
    have := length_followers parts
    simp only [listed, List.length_cons, List.length_append]
    omega

theorem text_le_followers {part : Part} {parts : List Part} (member : part ∈ parts) :
    part.text.length ≤ (followers parts).length := by
  induction parts with
  | nil => exact absurd member List.not_mem_nil
  | cons other parts ih =>
    simp only [followers, Part.full, List.length_cons, List.length_append]
    rcases List.mem_cons.1 member with rfl | member
    · omega
    · have := ih member
      omega

theorem text_le_listed {part : Part} {parts : List Part} (member : part ∈ parts) :
    part.text.length ≤ (listed parts).length := by
  cases parts with
  | nil => exact absurd member List.not_mem_nil
  | cons other parts =>
    simp only [listed, Part.full, List.length_append]
    rcases List.mem_cons.1 member with rfl | member
    · omega
    · have := text_le_followers member
      omega

/-- The brackets that close a list. -/
def IsClosing (c : Char) : Prop := c = ']' ∨ c = '\x7d'

/-- What a reader finds in a text, or that it refuses the text, in front of anything that does not
continue a number. -/
def Reads {α : Type} (item : List Char → Except Failure (α × List Char)) (text : List Char)
    (outcome : Option α) : Prop :=
  ∀ rest, Text.Ends continuesNumber rest →
    (item (text ++ rest)).toOption = outcome.map fun value => (value, rest)

/-- Each text is read by itself, into what has been collected before it, up to the first text that
is refused. -/
inductive Gathers {α : Type} (item : α → List Char → Except Failure (α × List Char)) :
    α → List (List Char) → Option α → Prop
  | nil (found : α) : Gathers item found [] (some found)
  | cons {found middle : α} {text : List Char} {texts : List (List Char)} {last : Option α}
    (read : Reads (item found) text (some middle)) (others : Gathers item middle texts last) :
    Gathers item found (text :: texts) last
  | stop {found : α} {text : List Char} (refused : Reads (item found) text none)
    (texts : List (List Char)) : Gathers item found (text :: texts) none

/-- Each text is read by itself, into what has been collected before it. -/
inductive Gathered {α : Type} (item : α → List Char → Except Failure (α × List Char)) :
    α → List (List Char) → α → Prop
  | nil (found : α) : Gathered item found [] found
  | cons {found middle last : α} {text : List Char} {texts : List (List Char)}
    (read : ∀ rest, Text.Ends continuesNumber rest →
      item found (text ++ rest) = .ok (middle, rest))
    (others : Gathered item middle texts last) : Gathered item found (text :: texts) last

theorem Gathered.gathers {α : Type} {item : α → List Char → Except Failure (α × List Char)}
    {found last : α} {texts : List (List Char)} (gathered : Gathered item found texts last) :
    Gathers item found texts (some last) := by
  induction gathered with
  | nil found => exact .nil found
  | cons read others ih =>
    refine .cons ?_ ih
    intro rest ends
    rw [read rest ends]
    rfl

/-! ## What stands behind a part -/

theorem isBlank_eq_false_of_closing {c : Char} (h : IsClosing c) : isBlank c = false := by
  rcases h with rfl | rfl <;> rfl

theorem continuesNumber_of_closing {c : Char} (h : IsClosing c) : continuesNumber c = false := by
  rcases h with rfl | rfl <;> rfl

theorem continuesNumber_of_isBlank {c : Char} (h : isBlank c = true) :
    continuesNumber c = false := by
  simp only [isBlank, Bool.or_eq_true, beq_iff_eq] at h
  rcases h with ((rfl | rfl) | rfl) | rfl <;> rfl

theorem ends_append {blank rest : List Char} (white : Blank blank)
    (ends : Text.Ends continuesNumber rest) : Text.Ends continuesNumber (blank ++ rest) := by
  cases blank with
  | nil => exact ends
  | cons c blank => exact Text.ends_cons (continuesNumber_of_isBlank (white c List.mem_cons_self))

theorem ends_followers {closing : Char} (h : IsClosing closing) (parts : List Part)
    (rest : List Char) : Text.Ends continuesNumber (followers parts ++ closing :: rest) := by
  cases parts with
  | nil => exact Text.ends_cons (continuesNumber_of_closing h)
  | cons part parts => exact Text.ends_cons rfl

/-! ## The loop -/

section

variable {α : Type} {closing : Char} {item : α → List Char → Except Failure (α × List Char)}

theorem next_closing (h : IsClosing closing) (first : Bool) {blank : List Char}
    (white : Blank blank) (rest : List Char) :
    next closing first (blank ++ closing :: rest) = .ok (.closed rest) := by
  rw [next, skipBlank_append white (Text.ends_cons (isBlank_eq_false_of_closing h))]
  simp

theorem skipBlank_part {part : Part} (plain : part.Plain closing) (rest : List Char) :
    ∃ c text, skipBlank (part.full ++ rest) = c :: text ∧ c ≠ closing ∧
      c :: text = part.text ++ (part.after ++ rest) := by
  obtain ⟨c, text, start, visible, other⟩ := plain.start
  refine ⟨c, text ++ (part.after ++ rest), ?_, other, by rw [start]; rfl⟩
  rw [Part.full, start, List.append_assoc, List.append_assoc, List.cons_append,
    skipBlank_append plain.before (Text.ends_cons visible)]

theorem next_first {part : Part} (plain : part.Plain closing) (rest : List Char) :
    next closing true (part.full ++ rest) = .ok (.item (part.text ++ (part.after ++ rest))) := by
  obtain ⟨c, text, skipped, other, parts⟩ := skipBlank_part plain rest
  simp only [next, skipped, other, if_false, if_true]
  rw [parts]

theorem next_follower (h : IsClosing closing) {blank : List Char} (white : Blank blank)
    {part : Part} (plain : part.Plain closing) (rest : List Char) :
    next closing false (blank ++ ',' :: (part.full ++ rest)) =
      .ok (.item (part.text ++ (part.after ++ rest))) := by
  have comma : ',' ≠ closing := by
    rcases h with rfl | rfl <;> decide
  obtain ⟨c, text, skipped, other, parts⟩ := skipBlank_part plain rest
  rw [next, skipBlank_append white (Text.ends_cons rfl)]
  simp only [skipped, comma, other, if_false, if_true, Bool.false_eq_true]
  rw [parts]

/-- Behind a part, the loop gathers the parts that follow and stops at the closing bracket. -/
theorem collect_followers (h : IsClosing closing) {found : α} {last : Option α} {parts : List Part}
    (gathers : Gathers item found (parts.map Part.text) last)
    (plain : ∀ part ∈ parts, part.Plain closing) {budget : Nat} (enough : parts.length < budget)
    {blank : List Char} (white : Blank blank) (rest : List Char) :
    (collect closing item budget false found
      (blank ++ (followers parts ++ closing :: rest))).toOption =
        last.map fun value => (value, rest) := by
  obtain ⟨budget, rfl⟩ := Nat.exists_eq_add_one_of_ne_zero (Nat.ne_of_gt (Nat.zero_lt_of_lt enough))
  induction parts generalizing found budget blank with
  | nil =>
    cases gathers
    rw [collect, followers, List.nil_append, next_closing h false white]
    rfl
  | cons part parts ih =>
    have first := plain part List.mem_cons_self
    obtain ⟨budget, rfl⟩ := Nat.exists_eq_add_one_of_ne_zero
      (Nat.ne_of_gt (Nat.zero_lt_of_lt (Nat.lt_of_succ_lt_succ enough)))
    have ends := ends_append first.after (ends_followers h parts rest)
    rw [collect, followers, List.cons_append, List.append_assoc, next_follower h white first]
    cases gathers with
    | cons read others =>
      simp only [eq_ok_of_toOption (read _ ends)]
      exact ih others (fun other member => plain other (List.mem_cons_of_mem _ member)) first.after
        _ (Nat.lt_of_succ_lt_succ enough)
    | stop refused =>
      obtain ⟨failure, failed⟩ := eq_error_of_toOption (refused _ ends)
      simp only [failed]
      rfl

/-- The loop gathers all parts of a list. -/
theorem collect_gathers (h : IsClosing closing) {found : α} {last : Option α} {parts : List Part}
    (gathers : Gathers item found (parts.map Part.text) last)
    (plain : ∀ part ∈ parts, part.Plain closing) {budget : Nat} (enough : parts.length < budget)
    (rest : List Char) :
    (collect closing item budget true found (listed parts ++ closing :: rest)).toOption =
      last.map fun value => (value, rest) := by
  obtain ⟨budget, rfl⟩ := Nat.exists_eq_add_one_of_ne_zero (Nat.ne_of_gt (Nat.zero_lt_of_lt enough))
  cases parts with
  | nil =>
    cases gathers
    have closed := next_closing h true blank_nil rest
    rw [List.nil_append] at closed
    rw [collect, listed, List.nil_append, closed]
    rfl
  | cons part parts =>
    have first := plain part List.mem_cons_self
    have ends := ends_append first.after (ends_followers h parts rest)
    rw [collect, listed, List.append_assoc, next_first first]
    cases gathers with
    | cons read others =>
      simp only [eq_ok_of_toOption (read _ ends)]
      exact collect_followers h others
        (fun other member => plain other (List.mem_cons_of_mem _ member))
        (Nat.lt_of_succ_lt_succ enough) first.after rest
    | stop refused =>
      obtain ⟨failure, failed⟩ := eq_error_of_toOption (refused _ ends)
      simp only [failed]
      rfl

theorem collect_listed (h : IsClosing closing) {found last : α} {parts : List Part}
    (gathered : Gathered item found (parts.map Part.text) last)
    (plain : ∀ part ∈ parts, part.Plain closing) {budget : Nat} (enough : parts.length < budget)
    (rest : List Char) :
    collect closing item budget true found (listed parts ++ closing :: rest) =
      .ok (last, rest) :=
  eq_ok_of_toOption (collect_gathers h gathered.gathers plain enough rest)

end

/-! ## Items in order -/

section

variable {α β : Type} {item : List Char → Except Failure (α × List Char)} {closing : Char}
  {spell : β → List Char} {meaning : β → α}

theorem gathered_push {sources : List β}
    (read : ∀ source ∈ sources, ∀ rest, Text.Ends continuesNumber rest →
      item (spell source ++ rest) = .ok (meaning source, rest)) (found : List α) :
    Gathered (push item) found (sources.map spell) ((sources.map meaning).reverse ++ found) := by
  induction sources generalizing found with
  | nil => exact .nil found
  | cons source sources ih =>
    have first : ∀ rest, Text.Ends continuesNumber rest →
        push item found (spell source ++ rest) = .ok (meaning source :: found, rest) := by
      intro rest ends
      rw [push, read source List.mem_cons_self rest ends]
      rfl
    refine .cons first ?_
    rw [List.map_cons, List.reverse_cons, List.append_assoc]
    exact ih (fun other member => read other (List.mem_cons_of_mem _ member)) _

/-- Items are read in their order when each one is read by itself. -/
theorem collect_push (h : IsClosing closing) {sources : List β} {parts : List Part}
    (texts : parts.map Part.text = sources.map spell)
    (read : ∀ source ∈ sources, ∀ rest, Text.Ends continuesNumber rest →
      item (spell source ++ rest) = .ok (meaning source, rest))
    (plain : ∀ part ∈ parts, part.Plain closing) {budget : Nat} (enough : parts.length < budget)
    (rest : List Char) :
    (collect closing (push item) budget true [] (listed parts ++ closing :: rest)).map
      (fun (found, rest) => (found.reverse, rest)) = .ok (sources.map meaning, rest) := by
  have gathered := gathered_push read []
  rw [← texts] at gathered
  rw [collect_listed h gathered plain enough, List.append_nil, Except.map]
  simp only [List.reverse_reverse]

end

end TickMachine.Json
