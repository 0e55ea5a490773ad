import Mathlib.Data.List.Forall2
import TickMachine.Proofs.Json.Values

/-! # Values written by hand

JSON leaves a choice of texts for a value: any white space between its tokens, and any spelling of
the characters in its strings, by themselves, escaped, or as a pair of surrogates. The reader makes
the same of each of them. A number has one text only, but it may be too large for the reader. -/

namespace TickMachine.Json

open Decimal (digits)

/-! ## Strings -/

/-- The texts of a code unit: four hexadecimal digits. -/
inductive SpelledUnit : Nat → List Char → Prop
  | digits {h₁ h₂ h₃ h₄ : Char} {d₁ d₂ d₃ d₄ : Nat} (first : hexValue? h₁ = some d₁)
    (second : hexValue? h₂ = some d₂) (third : hexValue? h₃ = some d₃)
    (fourth : hexValue? h₄ = some d₄) :
    SpelledUnit (((d₁ * 16 + d₂) * 16 + d₃) * 16 + d₄) [h₁, h₂, h₃, h₄]

/-- The texts of a character inside a string. A character beyond the basic plane may be written as a
pair of surrogates. -/
inductive WrittenChar : Char → List Char → Prop
  | spelled {c : Char} {text : List Char} (spelled : SpelledChar c text) : WrittenChar c text
  | pair {c : Char} {high low : List Char} (beyond : 0x10000 ≤ c.toNat)
    (first : SpelledUnit (0xd800 + (c.toNat - 0x10000) / 0x400) high)
    (second : SpelledUnit (0xdc00 + (c.toNat - 0x10000) % 0x400) low) :
    WrittenChar c ('\\' :: 'u' :: (high ++ '\\' :: 'u' :: low))

/-- The texts of characters inside a string. -/
inductive WrittenChars : List Char → List Char → Prop
  | nil : WrittenChars [] []
  | cons {c : Char} {text : List Char} {cs texts : List Char} (first : WrittenChar c text)
    (others : WrittenChars cs texts) : WrittenChars (c :: cs) (text ++ texts)

/-- The texts of a string. -/
inductive WrittenString (text : String) : List Char → Prop
  | quoted {inside : List Char} (chars : WrittenChars text.toList inside) :
    WrittenString text ('"' :: (inside ++ ['"']))

theorem hexUnit_spelled {unit : Nat} {text : List Char} (spelled : SpelledUnit unit text)
    (rest : List Char) : hexUnit (text ++ rest) = .ok (unit, rest) := by
  cases spelled with
  | digits first second third fourth => exact hexUnit_of_values rest first second third fourth

theorem codedChar_passed {unit : Nat} {text : List Char} (spelled : SpelledUnit unit text)
    (rest : List Char) : codedChar .skipped (text ++ rest) = .ok (Char.ofNat unit, rest) := by
  simp only [codedChar, hexUnit_spelled spelled, if_true]

/-- A pair of surrogates is read as its character. -/
theorem codedChar_pair {c : Char} {high low : List Char} (beyond : 0x10000 ≤ c.toNat)
    (first : SpelledUnit (0xd800 + (c.toNat - 0x10000) / 0x400) high)
    (second : SpelledUnit (0xdc00 + (c.toNat - 0x10000) % 0x400) low) (rest : List Char) :
    codedChar .kept (high ++ '\\' :: 'u' :: (low ++ rest)) = .ok (c, rest) := by
  have last : c.toNat < 0x110000 := by
    rcases c.valid with below | above
    · exact Nat.lt_trans below (by decide)
    · exact above.2
  have notLow : isLowSurrogate (0xd800 + (c.toNat - 0x10000) / 0x400) = false := by
    simp only [isLowSurrogate, decide_eq_false_iff_not]
    omega
  have isHigh : isHighSurrogate (0xd800 + (c.toNat - 0x10000) / 0x400) = true := by
    simp only [isHighSurrogate, decide_eq_true_eq]
    omega
  have isLow : isLowSurrogate (0xdc00 + (c.toNat - 0x10000) % 0x400) = true := by
    simp only [isLowSurrogate, decide_eq_true_eq]
    omega
  have whole : 0x10000 + (0xd800 + (c.toNat - 0x10000) / 0x400 - 0xd800) * 0x400 +
      (0xdc00 + (c.toNat - 0x10000) % 0x400 - 0xdc00) = c.toNat := by
    omega
  simp only [codedChar, hexUnit_spelled first, hexUnit_spelled second, lowSurrogate, notLow, isHigh,
    isLow, whole, Char.ofNat_toNat, reduceCtorEq, Bool.false_eq_true, if_false, if_true]

theorem stringBody_writtenChar {found : List Char} {c : Char} {text : List Char}
    (written : WrittenChar c text) (rest : List Char) :
    stringBody .kept found (text ++ rest) = stringBody .kept (c :: found) rest := by
  cases written with
  | spelled spelled => exact stringBody_spelledChar .kept spelled
  | pair beyond first second =>
    simp only [List.cons_append, List.append_assoc]
    exact stringBody_coded (codedChar_pair beyond first second rest)

/-- A reader that passes over a character ends behind it, whatever it makes of the surrogates. -/
theorem stringBody_passedChar (found : List Char) {c : Char} {text : List Char}
    (written : WrittenChar c text) (rest : List Char) :
    ∃ passed, stringBody .skipped found (text ++ rest) = stringBody .skipped passed rest := by
  cases written with
  | spelled spelled => exact ⟨_, stringBody_spelledChar .skipped spelled⟩
  | pair beyond first second =>
    simp only [List.cons_append, List.append_assoc]
    rw [stringBody_coded (codedChar_passed first _), stringBody_coded (codedChar_passed second rest)]
    exact ⟨_, rfl⟩

theorem stringBody_written {found cs text : List Char} (written : WrittenChars cs text)
    (rest : List Char) :
    stringBody .kept found (text ++ '"' :: rest) =
      .ok (String.ofList (found.reverse ++ cs), rest) := by
  induction written generalizing found with
  | nil => simp [stringBody]
  | cons first others ih =>
    rw [List.append_assoc, stringBody_writtenChar first, ih]
    simp

theorem stringBody_passed (found : List Char) {cs text : List Char} (written : WrittenChars cs text)
    (rest : List Char) :
    ∃ passed, stringBody .skipped found (text ++ '"' :: rest) = .ok (passed, rest) := by
  induction written generalizing found with
  | nil => exact ⟨_, by rw [List.nil_append, stringBody]⟩
  | cons first others ih =>
    obtain ⟨passed, same⟩ := stringBody_passedChar found first (_ ++ '"' :: rest)
    obtain ⟨last, read⟩ := ih passed
    rw [List.append_assoc, same]
    exact ⟨last, read⟩

theorem key_written {name : String} {text : List Char} (written : WrittenString name text)
    (rest : List Char) : key .kept (text ++ rest) = .ok (name, rest) := by
  cases written with
  | quoted chars =>
    rw [List.cons_append, List.append_assoc, key, List.singleton_append, stringBody_written chars]
    simp

theorem opens_written {text : String} {written : List Char} (h : WrittenString text written)
    (rest : List Char) : Opens (written ++ rest) := by
  cases h with
  | quoted chars => exact ⟨_, _, rfl, rfl, by decide, by decide⟩

theorem writtenChars_spelled {cs text : List Char} (spelled : SpelledString cs text) :
    WrittenChars cs text := by
  induction spelled with
  | nil => exact .nil
  | cons first others ih => exact .cons (.spelled first) ih

/-- The printer's spelling of a string is one of its texts. -/
theorem written_quote (text : String) : WrittenString text (quote text).toList := by
  rw [quote_toList]
  exact .quoted (writtenChars_spelled (spelled_escaped text.toList))

/-! ## Integers -/

/-- The value that is read for an integer, which may be too large for an integer of the reader. -/
def integerValue? (value : Int) : Option Value :=
  (wholeNumber .kept (decide (value < 0)) (digits value.natAbs)).toOption.map Value.number

/-- What a value represents if it is an integer of the reader. -/
def Value.represented? {α : Type} (represent : Int → Option α) : Value → Option α
  | .number (.integer value) => represent value
  | _ => none

theorem scalar_ofInt (value : Int) : Reads (scalar .kept) (Decimal.ofInt value).toList
    (integerValue? value) := by
  intro rest ends
  have read := number_ofInt .kept value ends
  obtain ⟨c, behind, parts, numeric⟩ := integer_start value
  rw [parts, List.cons_append] at read ⊢
  rw [scalar_numeric .kept _ numeric, read, toOption_map, toOption_map, integerValue?,
    Option.map_map, Option.map_map]
  rfl

theorem value_ofInt (budget levels : Nat) (value : Int) :
    Reads (Json.value .kept budget levels) (Decimal.ofInt value).toList (integerValue? value) := by
  intro rest ends
  have read := scalar_ofInt value rest ends
  obtain ⟨c, behind, parts, numeric⟩ := integer_start value
  rw [parts, List.cons_append] at read ⊢
  rw [value_numeric .kept budget levels _ numeric, read]

/-- An integer that is out of the reader's range represents nothing, as long as nothing is
represented by such an integer. -/
theorem represented?_integerValue? {α : Type} {represent : Int → Option α}
    (bounded : ∀ value meaning, represent value = some meaning → value.natAbs < UInt64.size)
    (value : Int) : (integerValue? value).bind (Value.represented? represent) = represent value := by
  by_cases small : value.natAbs < UInt64.size
  · rw [integerValue?, wholeNumber_digits .kept small]
    rfl
  · have missing : represent value = none := by
      cases h : represent value with
      | none => rfl
      | some meaning => exact absurd (bounded value meaning h) small
    obtain ⟨significand, exponent, read⟩ := wholeNumber_of_le .kept (decide (value < 0))
      (Decimal.ofDigitChars_digits value.natAbs) (Nat.not_lt.1 small)
    rw [integerValue?, read, missing, decimal]
    split <;> rfl

theorem toOption_integer {α : Type} (represent : Int → Option α) (text : List Char) :
    (integer represent text).toOption =
      (scalar .kept (skipBlank text)).toOption.bind fun read =>
        (read.1.represented? represent).map fun meaning => (meaning, read.2) := by
  rw [integer, toOption_bind]
  congr 1
  funext read
  obtain ⟨found, rest⟩ := read
  cases found with
  | number number =>
    cases number with
    | integer value =>
      simp only [Value.represented?]
      cases represent value <;> rfl
    | decimal negative significand exponent => rfl
  | null => rfl
  | bool value => rfl
  | string value => rfl
  | array items => rfl
  | object members => rfl

/-- An integer is read as what it represents, or it is refused. -/
theorem integer_ofInt {α : Type} {represent : Int → Option α}
    (bounded : ∀ value meaning, represent value = some meaning → value.natAbs < UInt64.size)
    (value : Int) {blank rest : List Char} (white : Blank blank)
    (ends : Text.Ends continuesNumber rest) :
    (integer represent (blank ++ ((Decimal.ofInt value).toList ++ rest))).toOption =
      (represent value).map fun meaning => (meaning, rest) := by
  have skipped : skipBlank (blank ++ ((Decimal.ofInt value).toList ++ rest)) =
      (Decimal.ofInt value).toList ++ rest := by
    obtain ⟨c, behind, parts, numeric⟩ := integer_start value
    rw [parts]
    exact skipBlank_append white (Text.ends_cons (isBlank_of_numeric numeric))
  rw [toOption_integer, skipped, scalar_ofInt value rest ends,
    ← represented?_integerValue? bounded value]
  cases integerValue? value <;> rfl

/-! ## Values without parts -/

/-- A value that says nothing about a program. -/
inductive Note
  | null
  | bool (value : Bool)
  | string (text : String)

/-- The value of a note. -/
def Note.value : Note → Value
  | .null => .null
  | .bool value => .bool value
  | .string text => .string text

/-- The texts of a note. -/
inductive Note.Written : Note → List Char → Prop
  | null : Written .null ['n', 'u', 'l', 'l']
  | true : Written (.bool true) ['t', 'r', 'u', 'e']
  | false : Written (.bool false) ['f', 'a', 'l', 's', 'e']
  | string {text : String} {written : List Char} (quoted : WrittenString text written) :
    Written (.string text) written

theorem Note.Written.opens {note : Note} {text : List Char} (written : note.Written text) :
    Opens text := by
  cases written with
  | null => exact ⟨_, _, rfl, rfl, by decide, by decide⟩
  | true => exact ⟨_, _, rfl, rfl, by decide, by decide⟩
  | false => exact ⟨_, _, rfl, rfl, by decide, by decide⟩
  | string quoted =>
    have opens := opens_written quoted []
    rwa [List.append_nil] at opens

theorem value_note {note : Note} {text : List Char} (written : note.Written text)
    (budget levels : Nat) (rest : List Char) :
    value .kept budget levels (text ++ rest) = .ok (note.value, rest) := by
  cases written with
  | null => exact value_scalar .kept budget levels _ rfl (by decide) (by decide)
  | true => exact value_scalar .kept budget levels _ rfl (by decide) (by decide)
  | false => exact value_scalar .kept budget levels _ rfl (by decide) (by decide)
  | string quoted =>
    cases quoted with
    | quoted chars =>
      rw [List.cons_append, List.append_assoc, List.singleton_append,
        value_scalar .kept budget levels _ rfl (by decide) (by decide), scalar,
        stringBody_written chars]
      simp only [List.reverse_nil, List.nil_append, String.ofList_toList]
      rfl

/-- A reader that passes over a note ends behind it. -/
theorem skipValue_note {note : Note} {text : List Char} (written : note.Written text)
    (budget : Nat) {blank : List Char} (white : Blank blank) (rest : List Char) :
    skipValue budget (blank ++ (text ++ rest)) = .ok rest := by
  have passed : ∃ found, value .skipped budget budget (text ++ rest) = .ok (found, rest) := by
    cases written with
    | null => exact ⟨.null, value_scalar .skipped budget budget _ rfl (by decide) (by decide)⟩
    | true => exact ⟨.bool true, value_scalar .skipped budget budget _ rfl (by decide) (by decide)⟩
    | false =>
      exact ⟨.bool false, value_scalar .skipped budget budget _ rfl (by decide) (by decide)⟩
    | string quoted =>
      cases quoted with
      | quoted chars =>
        obtain ⟨passed, read⟩ := stringBody_passed [] chars rest
        rw [List.cons_append, List.append_assoc, List.singleton_append,
          value_scalar .skipped budget budget _ rfl (by decide) (by decide), scalar, read]
        exact ⟨.string passed, rfl⟩
  obtain ⟨found, read⟩ := passed
  rw [skipValue, value_blank .skipped budget budget white, read]
  rfl

/-! ## Lists -/

/-- A part that writes a source, with white space around it. -/
structure WrittenPart {β : Type} (written : β → List Char → Prop) (source : β) (part : Part) :
    Prop where
  before : Blank part.before
  text : written source part.text
  after : Blank part.after

theorem WrittenPart.unspaced {β : Type} {written : β → List Char → Prop} {source : β}
    {text : List Char} (holds : written source text) :
    WrittenPart written source ⟨[], text, []⟩ :=
  ⟨blank_nil, holds, blank_nil⟩

/-- The texts of a list: its sources between commas, with white space around each of them. There may
be white space in a list without sources, too. -/
inductive WrittenList {β : Type} (opening closing : Char) (written : β → List Char → Prop) :
    List β → List Char → Prop
  | empty {blank : List Char} (white : Blank blank) :
    WrittenList opening closing written [] (opening :: (blank ++ [closing]))
  | items {sources : List β} {parts : List Part}
    (each : List.Forall₂ (WrittenPart written) sources parts) :
    WrittenList opening closing written sources (opening :: (listed parts ++ [closing]))

section

variable {α β : Type} {opening closing : Char} {written : β → List Char → Prop} {size : Nat}

theorem WrittenList.opens {sources : List β} {text : List Char}
    (list : WrittenList opening closing written sources text)
    (bracket : opening = '[' ∨ opening = '\x7b') : Opens text := by
  have visible : isBlank opening = false ∧ opening ≠ ']' ∧ opening ≠ '\x7d' := by
    rcases bracket with rfl | rfl <;> decide
  cases list with
  | empty white => exact ⟨opening, _, rfl, visible⟩
  | items each => exact ⟨opening, _, rfl, visible⟩

theorem plain_written (h : IsClosing closing)
    (opens : ∀ source text, written source text → Opens text) {sources : List β}
    {parts : List Part} (each : List.Forall₂ (WrittenPart written) sources parts) :
    ∀ part ∈ parts, part.Plain closing := by
  induction each with
  | nil =>
    intro part member
    exact absurd member List.not_mem_nil
  | cons first others ih =>
    intro part member
    rcases List.mem_cons.1 member with rfl | member
    · exact ⟨first.before, first.after, (opens _ _ first.text).start h⟩
    · exact ih part member

/-- The sources of a list are gathered in their order, up to the first one that is refused. -/
theorem gathers_written {item : α → List Char → Except Failure (α × List Char)}
    {step : α → β → Option α}
    (reads : ∀ source text, written source text → text.length ≤ size → ∀ found,
      Reads (item found) text (step found source)) {sources : List β} {parts : List Part}
    (each : List.Forall₂ (WrittenPart written) sources parts)
    (short : ∀ part ∈ parts, part.text.length ≤ size) (found : α) :
    Gathers item found (parts.map Part.text) (sources.foldlM step found) := by
  induction each generalizing found with
  | nil => exact .nil found
  | @cons source part sources parts first others ih =>
    have read := reads source part.text first.text (short part List.mem_cons_self) found
    rw [List.foldlM_cons, List.map_cons]
    cases h : step found source with
    | none =>
      rw [h] at read
      exact .stop read _
    | some middle =>
      rw [h] at read
      exact .cons read (ih (fun other member => short other (List.mem_cons_of_mem _ member)) middle)

theorem collect_written (h : IsClosing closing)
    {item : α → List Char → Except Failure (α × List Char)} {step : α → β → Option α}
    (opens : ∀ source text, written source text → Opens text)
    (reads : ∀ source text, written source text → text.length ≤ size → ∀ found,
      Reads (item found) text (step found source)) {sources : List β} {text : List Char}
    (list : WrittenList opening closing written sources text) (short : text.length ≤ size)
    (found : α) (rest : List Char) :
    ∃ inside, text = opening :: inside ∧
      (collect closing item size true found (inside ++ rest)).toOption =
        (sources.foldlM step found).map fun value => (value, rest) := by
  cases list with
  | @empty blank white =>
    refine ⟨blank ++ [closing], rfl, ?_⟩
    obtain ⟨budget, rfl⟩ : ∃ budget, size = budget + 1 := by
      refine Nat.exists_eq_add_one_of_ne_zero ?_
      rintro rfl
      exact absurd short (Nat.not_succ_le_zero _)
    rw [List.append_assoc, List.singleton_append, collect, next_closing h true white]
    rfl
  | @items _ parts each =>
    refine ⟨listed parts ++ [closing], rfl, ?_⟩
    simp only [List.length_cons, List.length_append, List.length_nil] at short
    have within : ∀ part ∈ parts, part.text.length ≤ size := by
      intro part member
      have := text_le_listed member
      omega
    have enough := length_listed parts
    rw [List.append_assoc, List.singleton_append]
    exact collect_gathers h (gathers_written reads each within found)
      (plain_written h opens each) (by omega) rest

theorem reads_push {item : List Char → Except Failure (α × List Char)} {text : List Char}
    {outcome : Option α} (read : Reads item text outcome) (found : List α) :
    Reads (push item found) text (outcome.map fun value => value :: found) := by
  intro rest ends
  rw [push, toOption_map, read rest ends]
  cases outcome <;> rfl

theorem foldlM_push (meaning : β → Option α) (sources : List β) (found : List α) :
    sources.foldlM (fun found source => (meaning source).map fun value => value :: found) found =
      (sources.mapM meaning).map fun values => values.reverse ++ found := by
  induction sources generalizing found with
  | nil => rfl
  | cons source sources ih =>
    rw [List.foldlM_cons, List.mapM_cons]
    cases meaning source with
    | none => rfl
    | some value =>
      have others := ih (value :: found)
      simp only [Option.map_some, bind, Option.bind] at others ⊢
      rw [others]
      cases sources.mapM meaning with
      | none => rfl
      | some values => simp

/-- The items of a list are what its sources mean, if all of them mean something. -/
theorem collect_writtenItems (h : IsClosing closing)
    {item : List Char → Except Failure (α × List Char)} {meaning : β → Option α}
    (opens : ∀ source text, written source text → Opens text)
    (reads : ∀ source text, written source text → text.length ≤ size →
      Reads item text (meaning source)) {sources : List β} {text : List Char}
    (list : WrittenList opening closing written sources text) (short : text.length ≤ size)
    (rest : List Char) :
    ∃ inside, text = opening :: inside ∧
      ((collect closing (push item) size true [] (inside ++ rest)).map fun (found, rest) =>
        (found.reverse, rest)).toOption =
          (sources.mapM meaning).map fun values => (values, rest) := by
  obtain ⟨inside, parts, read⟩ := collect_written h opens
    (fun source text written short found => reads_push (reads source text written short) found)
    list short [] rest
  refine ⟨inside, parts, ?_⟩
  rw [toOption_map, read, foldlM_push]
  cases sources.mapM meaning <;> simp

variable {levels : Nat}

theorem reads_array {meaning : β → Option Value}
    (opens : ∀ source text, written source text → Opens text)
    (reads : ∀ source text, written source text → text.length ≤ size →
      Reads (value .kept size levels) text (meaning source)) {sources : List β} {text : List Char}
    (list : WrittenList '[' ']' written sources text) (short : text.length ≤ size) :
    Reads (value .kept size (levels + 1)) text ((sources.mapM meaning).map Value.array) := by
  intro rest ends
  obtain ⟨inside, rfl, read⟩ := collect_writtenItems (.inl rfl) opens reads list short rest
  rw [List.cons_append, value_bracket, items, toOption_map, read, Option.map_map, Option.map_map]
  rfl

theorem reads_object {meaning : β → Option (String × Value)}
    (opens : ∀ source text, written source text → Opens text)
    (reads : ∀ source text, written source text → text.length ≤ size →
      Reads (member .kept (value .kept size levels)) text (meaning source)) {sources : List β}
    {text : List Char} (list : WrittenList '\x7b' '\x7d' written sources text)
    (short : text.length ≤ size) :
    Reads (value .kept size (levels + 1)) text ((sources.mapM meaning).map Value.object) := by
  intro rest ends
  obtain ⟨inside, rfl, read⟩ := collect_writtenItems (.inr rfl) opens reads list short rest
  rw [List.cons_append, value_brace, members, toOption_map, read, Option.map_map, Option.map_map]
  rfl

end

/-! ## Members -/

/-- The texts of a member of an object, with white space around its colon. -/
inductive WrittenMember (name : String) (written : List Char → Prop) : List Char → Prop
  | named {key before after text : List Char} (quoted : WrittenString name key)
    (white : Blank before) (white' : Blank after) (value : written text) :
    WrittenMember name written (key ++ (before ++ ':' :: (after ++ text)))

theorem WrittenMember.unspaced {name : String} {written : List Char → Prop} {text : List Char}
    (holds : written text) :
    WrittenMember name written ((quote name).toList ++ ([] ++ ':' :: ([] ++ text))) :=
  .named (written_quote name) blank_nil blank_nil holds

theorem colon_written {before : List Char} (white : Blank before) (rest : List Char) :
    colon (before ++ ':' :: rest) = .ok rest := by
  rw [colon, skipBlank_append white (Text.ends_cons rfl)]
  rfl

theorem WrittenMember.opens {name : String} {written : List Char → Prop} {text : List Char}
    (member : WrittenMember name written text) : Opens text := by
  cases member with
  | named named => exact opens_written named _

/-- Behind the key and the colon of a member stands its value, with white space around it. -/
theorem WrittenMember.read {name : String} {written : List Char → Prop} {text : List Char}
    (member : WrittenMember name written text) (rest : List Char) :
    ∃ behind after inner, key .kept (text ++ rest) = .ok (name, behind) ∧
      colon behind = .ok (after ++ (inner ++ rest)) ∧ Blank after ∧ written inner ∧
      inner.length ≤ text.length := by
  cases member with
  | @named key before after inner named white white' holds =>
    have read : Json.key .kept (key ++ (before ++ ':' :: (after ++ inner)) ++ rest) =
        .ok (name, before ++ ':' :: (after ++ (inner ++ rest))) := by
      simp only [List.append_assoc, List.cons_append]
      exact key_written named _
    refine ⟨_, after, inner, read, colon_written white _, white', holds, ?_⟩
    simp only [List.length_append, List.length_cons]
    omega

/-- White space in front of a value does not matter. -/
theorem reads_blank {size levels : Nat} {text : List Char} {outcome : Option Value}
    (read : Reads (value .kept size levels) text outcome) {blank : List Char} (white : Blank blank) :
    Reads (value .kept size levels) (blank ++ text) outcome := by
  intro rest ends
  rw [List.append_assoc, value_blank .kept size levels white]
  exact read rest ends

/-- A member is what its value is, kept under its key. -/
theorem reads_keyed {α β : Type} {item : List Char → Except Failure (β × List Char)} {name : String}
    {read : List Char → Except Failure (α × List Char)} {keep : α → β}
    (keyed : Keyed .kept item name read keep) {written : List Char → Prop} {text : List Char}
    (writes : WrittenMember name written text) (outcome : Option α)
    (reads : ∀ blank inner, Blank blank → written inner → inner.length ≤ text.length →
      Reads read (blank ++ inner) outcome) :
    Reads item text (outcome.map keep) := by
  intro rest ends
  obtain ⟨behind, after, inner, named, colon, white, holds, within⟩ := writes.read rest
  have found := reads after inner white holds within rest ends
  rw [List.append_assoc] at found
  rw [keyed.named named, colon, Except.bind, toOption_map, found, Option.map_map, Option.map_map]
  rfl

end TickMachine.Json
