import TickMachine.Proofs.Json.Values

/-! # Texts that end too early

A reader that is given the beginning of a printed value only runs out of text. It fails for this
reason, or it takes the beginning of a number for a shorter number and leaves nothing behind it;
then the end is missed by the list around the number. -/

namespace TickMachine.Json

open Decimal (digits)

theorem utf8Size_of_hexValue? {c : Char} {digit : Nat} (value : hexValue? c = some digit) :
    c.utf8Size = 1 := by
  rw [Char.utf8Size_eq_one_iff]
  unfold hexValue? at value
  split at value
  · next decimal =>
    simp only [Char.isDigit, Bool.and_eq_true, decide_eq_true_eq] at decimal
    exact UInt32.le_trans decimal.2 (by decide)
  · split at value
    · next lower => exact UInt32.le_trans lower.2 (by decide)
    · split at value
      · next upper => exact UInt32.le_trans upper.2 (by decide)
      · cases value

/-- The beginning of a text starts as the text does. -/
theorem cut_cons {c : Char} {text front missing : List Char} (cut : c :: text = front ++ missing)
    (begun : front ≠ []) : ∃ behind, front = c :: behind ∧ text = behind ++ missing := by
  obtain ⟨nothing, -⟩ | parts := List.cons_eq_append_iff.1 cut
  · exact absurd nothing begun
  · exact parts

section

variable {front missing : List Char} (more : missing ≠ [])
include more

/-! ## Strings -/

theorem hexUnit_cut {h₁ h₂ h₃ h₄ : Char} {d₁ d₂ d₃ : Nat} (first : hexValue? h₁ = some d₁)
    (second : hexValue? h₂ = some d₂) (third : hexValue? h₃ = some d₃)
    (cut : [h₁, h₂, h₃, h₄] = front ++ missing) : hexUnit front = .error .truncated := by
  have size₁ := utf8Size_of_hexValue? first
  have size₂ := utf8Size_of_hexValue? second
  have size₃ := utf8Size_of_hexValue? third
  simp only [List.cons_eq_append_iff, List.nil_eq, List.append_eq_nil_iff, more, and_false,
    exists_false, or_false] at cut
  obtain ⟨rfl, -⟩ | ⟨_, rfl, ⟨rfl, -⟩ | ⟨_, rfl, ⟨rfl, -⟩ | ⟨_, rfl, rfl, -⟩⟩⟩ := cut
  · rfl
  · simp [hexUnit, size₁]
  · simp [hexUnit, size₁, size₂]
  · simp [hexUnit, size₁, size₂, size₃]

/-- The beginning of a spelled character is no character. -/
theorem stringBody_cutChar (care : Care) {found : List Char} {c : Char} {text : List Char}
    (spelled : SpelledChar c text) (cut : text = front ++ missing) :
    stringBody care found front = .error .truncated := by
  cases spelled with
  | plain =>
    simp only [List.cons_eq_append_iff, List.nil_eq, List.append_eq_nil_iff, more, and_false,
      exists_false, or_false] at cut
    obtain ⟨rfl, -⟩ := cut
    rw [stringBody]
  | short =>
    simp only [List.cons_eq_append_iff, List.nil_eq, List.append_eq_nil_iff, more, and_false,
      exists_false, or_false] at cut
    obtain ⟨rfl, -⟩ | ⟨_, rfl, rfl, -⟩ := cut
    · rw [stringBody]
    · rw [stringBody]
  | unit first second third =>
    rw [List.cons_eq_append_iff] at cut
    obtain ⟨rfl, -⟩ | ⟨_, rfl, cut⟩ := cut
    · rw [stringBody]
    · rw [List.cons_eq_append_iff] at cut
      obtain ⟨rfl, -⟩ | ⟨behind, rfl, cut⟩ := cut
      · rw [stringBody]
      · apply stringBody_refused
        rw [codedChar, hexUnit_cut more first second third cut]

/-- The beginning of a string has no closing quote. -/
theorem stringBody_cut (care : Care) {found cs text : List Char} (spelled : SpelledString cs text)
    (cut : text ++ ['"'] = front ++ missing) :
    stringBody care found front = .error .truncated := by
  induction spelled generalizing found front with
  | nil =>
    simp only [List.nil_append, List.cons_eq_append_iff, List.nil_eq, List.append_eq_nil_iff, more,
      and_false, exists_false, or_false] at cut
    rw [cut.1, stringBody]
  | @cons c text cs texts first others ih =>
    rw [List.append_assoc, List.append_eq_append_iff] at cut
    obtain ⟨behind, rfl, same⟩ | ⟨behind, same, -⟩ := cut
    · rw [stringBody_spelledChar care first]
      exact ih same
    · by_cases whole : behind = []
      · rw [whole, List.append_nil] at same
        have read : stringBody care found (text ++ []) = stringBody care (c :: found) [] :=
          stringBody_spelledChar care first
        rw [List.append_nil, same] at read
        rw [read, stringBody]
      · exact stringBody_cutChar whole care first same

theorem quote_cut (care : Care) {text : String} (cut : (quote text).toList = front ++ missing)
    (begun : front ≠ []) :
    ∃ body, front = '"' :: body ∧ stringBody care [] body = .error .truncated := by
  rw [quote_toList, List.cons_append] at cut
  obtain ⟨body, same, cut⟩ := cut_cons cut begun
  exact ⟨body, same, stringBody_cut more care (spelled_escaped text.toList) cut⟩

theorem key_cut (care : Care) {name : String} (cut : (quote name).toList = front ++ missing)
    (begun : front ≠ []) : key care front = .error .truncated := by
  obtain ⟨body, rfl, read⟩ := quote_cut more care cut begun
  rw [key, read]

/-! ## Keywords and numbers -/

theorem keyword_cut {expected : List Char} (cut : expected = front ++ missing) :
    keyword expected front = .error .truncated := by
  induction front generalizing expected with
  | nil =>
    obtain ⟨c, rest, rfl⟩ := List.exists_cons_of_ne_nil more
    rw [cut, List.nil_append, keyword]
  | cons c front ih =>
    rw [cut, List.cons_append, keyword, if_pos rfl]
    exact ih rfl

omit more in
/-- The first digits of a number stand for a smaller number. -/
theorem magnitude_front (care : Care) (negative : Bool) {n : Nat} (small : n < UInt64.size)
    (cut : digits n = front ++ missing) (begun : front ≠ []) :
    ∃ less ≤ n, magnitude care negative front =
      .ok (if negative then if less = 0 then .decimal true 0 0 else .integer (-less)
        else .integer less, []) := by
  have value := Decimal.ofDigitChars_digits n
  rw [cut, Nat.ofDigitChars_append, Nat.ofDigitChars_eq_ofDigitChars_zero] at value
  have less : Nat.ofDigitChars 10 front 0 ≤ n := by
    rw [← value]
    exact Nat.le_trans (Nat.le_mul_of_pos_left _ (Nat.pow_pos (by decide))) (Nat.le_add_right _ _)
  have inside : ∀ c ∈ front, c.isDigit = true := by
    intro c member
    have among : c ∈ digits n := by
      rw [cut]
      exact List.mem_append_left missing member
    exact Decimal.isDigit_of_mem among
  have plain : ¬(front.head? = some '0' ∧ 1 < front.length) := by
    rintro ⟨zero, long⟩
    refine plain_digits n ⟨?_, ?_⟩
    · rw [cut, List.head?_append, zero]
      rfl
    · rw [cut, List.length_append]
      omega
  have read := magnitude_whole care negative inside begun plain Text.ends_nil
  rw [List.append_nil, wholeNumber_of_lt care negative rfl (Nat.lt_of_le_of_lt less small)] at read
  exact ⟨_, less, read⟩

omit more in
theorem scalar_digits_cut (care : Care) {n : Nat} (small : n < UInt64.size)
    (cut : digits n = front ++ missing) (begun : front ≠ []) :
    ∃ less ≤ n, scalar care front = .ok (.integer less, []) := by
  obtain ⟨less, le, read⟩ := magnitude_front care false small cut begun
  obtain ⟨c, behind, rfl⟩ := List.exists_cons_of_ne_nil begun
  have digit : c.isDigit = true := by
    have among : c ∈ digits n := by
      rw [cut]
      exact List.mem_cons_self
    exact Decimal.isDigit_of_mem among
  rw [scalar_numeric care behind (.inr digit), number_of_digit care digit, read]
  exact ⟨less, le, rfl⟩

omit more in
/-- The beginning of an integer is a sign alone or another number. -/
theorem scalar_integer_cut {value : Int} (small : value.natAbs < UInt64.size)
    (cut : (Decimal.ofInt value).toList = front ++ missing) (begun : front ≠ []) :
    scalar .kept front = .error .truncated ∨
      ∃ found, scalar .kept front = .ok (.number found, []) := by
  rcases Int.eq_nat_or_neg value with ⟨n, rfl | rfl⟩
  · rw [Decimal.toList_ofInt_ofNat] at cut
    obtain ⟨less, -, read⟩ := scalar_digits_cut .kept (by omega) cut begun
    exact .inr ⟨_, read⟩
  · cases n with
    | zero =>
      obtain ⟨less, -, read⟩ := scalar_digits_cut .kept (n := 0) (by decide) cut begun
      exact .inr ⟨_, read⟩
    | succ n =>
      rw [Decimal.toList_ofInt_neg _ (Nat.succ_pos n)] at cut
      obtain ⟨behind, rfl, left⟩ := cut_cons cut begun
      rw [scalar_numeric .kept behind (.inl rfl), number]
      by_cases sign : behind = []
      · rw [sign]
        exact .inl rfl
      · obtain ⟨less, -, read⟩ := magnitude_front .kept true (by omega) left sign
        rw [read]
        exact .inr ⟨_, rfl⟩

end

/-! ## Lists -/

section

variable {α : Type}

/-- On a beginning of the text, a reader finds that the text ends too early, or it reads to the end
that it is given. -/
def RunsOut (size : Nat) (item : List Char → Except Failure (α × List Char)) (text : List Char) :
    Prop :=
  ∀ front missing, text = front ++ missing → front ≠ [] → missing ≠ [] → front.length ≤ size →
    item front = .error .truncated ∨ ∃ value, item front = .ok (value, [])

/-- A reader that passes over a space runs out behind it. -/
theorem runsOut_space {size : Nat} {item : List Char → Except Failure (α × List Char)}
    {text : List Char} (space : ∀ rest, item (' ' :: rest) = item rest)
    (nothing : item [] = .error .truncated) (runsOut : RunsOut size item text) :
    RunsOut size item (' ' :: text) := by
  intro front missing cut begun more short
  obtain ⟨behind, rfl, left⟩ := cut_cons cut begun
  rw [space]
  by_cases empty : behind = []
  · rw [empty]
    exact .inl nothing
  · exact runsOut behind missing left empty more (Nat.le_of_succ_le short)

/-- Each text is read by itself where it is complete, and runs out where it is not. -/
inductive Sequenced (size : Nat) (item : α → List Char → Except Failure (α × List Char)) :
    α → List (List Char) → Prop
  | nil (found : α) : Sequenced size item found []
  | cons {found middle : α} {text : List Char} {texts : List (List Char)}
    (read : text.length ≤ size → ∀ rest, Text.Ends continuesNumber rest →
      item found (text ++ rest) = .ok (middle, rest))
    (cut : RunsOut size (item found) text) (others : Sequenced size item middle texts) :
    Sequenced size item found (text :: texts)

variable {closing : Char} {item : α → List Char → Except Failure (α × List Char)}

theorem collect_nothing (budget : Nat) (first : Bool) (found : α) {blank : List Char}
    (white : Blank blank) : collect closing item budget first found blank = .error .truncated := by
  cases budget with
  | zero => rfl
  | succ budget => rw [collect, next, skipBlank_blank white]

theorem ends_front {p : Char → Bool} {front missing : List Char}
    (ends : Text.Ends p (front ++ missing)) : Text.Ends p front := by
  intro c head
  apply ends
  rw [List.head?_append, Option.mem_def.1 head]
  rfl

theorem blank_front {front missing : List Char} (white : Blank (front ++ missing)) :
    Blank front :=
  fun c member => white c (List.mem_append_left missing member)

/-- The beginning of a part and of what stands behind it: white space, the beginning of the text of
the part, or the whole text with the beginning of what is behind. -/
theorem cut_part {part : Part} (plain : part.Plain closing) {behind front missing : List Char}
    (cut : part.full ++ behind = front ++ missing) :
    Blank front ∨
    (∃ begun rest, front = part.before ++ begun ∧ part.text = begun ++ rest ∧ begun ≠ [] ∧
      rest ≠ []) ∨
    ∃ begun, front = part.before ++ (part.text ++ begun) ∧
      part.after ++ behind = begun ++ missing := by
  rw [Part.full, List.append_assoc, List.append_assoc, List.append_eq_append_iff] at cut
  obtain ⟨begun, rfl, within⟩ | ⟨rest, same, -⟩ := cut
  · obtain ⟨last, rfl, left⟩ | ⟨rest, same, left⟩ := List.append_eq_append_iff.1 within
    · exact .inr (.inr ⟨last, rfl, left⟩)
    · by_cases nothing : begun = []
      · left
        rw [nothing, List.append_nil]
        exact plain.before
      · by_cases whole : rest = []
        · rw [whole, List.append_nil] at same
          rw [whole, List.nil_append] at left
          refine .inr (.inr ⟨[], ?_, ?_⟩)
          · rw [same, List.append_nil]
          · rw [left, List.nil_append]
        · exact .inr (.inl ⟨begun, rest, rfl, same, nothing, whole⟩)
  · left
    have white := plain.before
    rw [same] at white
    exact blank_front white

/-- Behind a lead, the loop of a list finds the start of an item, or the end of the text. -/
structure Awaits (closing : Char) (first : Bool) (lead : List Char) : Prop where
  item {blank : List Char} {c : Char} {rest : List Char} (white : Blank blank)
    (visible : isBlank c = false) (other : c ≠ closing) :
    next closing first (lead ++ (blank ++ c :: rest)) = .ok (.item (c :: rest))
  nothing {blank : List Char} (white : Blank blank) :
    next closing first (lead ++ blank) = .error .truncated

theorem awaits_first (closing : Char) : Awaits closing true [] where
  item := by
    intro blank c rest white visible other
    rw [List.nil_append, next, skipBlank_append white (Text.ends_cons visible)]
    simp only [other, if_false, if_true]
  nothing := by
    intro blank white
    rw [List.nil_append, next, skipBlank_blank white]

theorem awaits_follower (h : IsClosing closing) {before : List Char} (white : Blank before) :
    Awaits closing false (before ++ [',']) where
  item := by
    intro blank c rest white' visible other
    have comma : ',' ≠ closing := by
      rcases h with rfl | rfl <;> decide
    rw [List.append_assoc, List.singleton_append, next,
      skipBlank_append white (Text.ends_cons rfl)]
    simp only [skipBlank_append white' (Text.ends_cons visible), comma, other, if_false, if_true,
      Bool.false_eq_true]
  nothing := by
    intro blank white'
    have comma : ',' ≠ closing := by
      rcases h with rfl | rfl <;> decide
    rw [List.append_assoc, List.singleton_append, next,
      skipBlank_append white (Text.ends_cons rfl)]
    simp only [skipBlank_blank white', comma, if_false, if_true, Bool.false_eq_true]

section

variable {size : Nat} {front missing : List Char}

/-- The loop runs out in a part or behind it, or it goes on with the beginning of what follows. -/
theorem collect_cutPart {first : Bool} {lead : List Char} (awaits : Awaits closing first lead)
    {found middle : α} {part : Part} (plain : part.Plain closing)
    (read : part.text.length ≤ size → ∀ rest, Text.Ends continuesNumber rest →
      item found (part.text ++ rest) = .ok (middle, rest))
    (runsOut : RunsOut size (item found) part.text) {behind : List Char}
    (ends : Text.Ends continuesNumber behind) (cut : part.full ++ behind = front ++ missing)
    (short : front.length ≤ size) (budget : Nat) :
    collect closing item (budget + 1) first found (lead ++ front) = .error .truncated ∨
      ∃ begun, part.after ++ behind = begun ++ missing ∧ begun.length ≤ size ∧
        collect closing item (budget + 1) first found (lead ++ front) =
          collect closing item budget false middle begun := by
  obtain ⟨c, tail, start, visible, other⟩ := plain.start
  obtain white | ⟨begun, rest, rfl, parts, begins, ends⟩ | ⟨begun, rfl, left⟩ := cut_part plain cut
  · left
    rw [collect, awaits.nothing white]
  · left
    have within : begun.length ≤ size := by
      rw [List.length_append] at short
      omega
    have stopped := runsOut begun rest parts begins ends within
    obtain ⟨d, others, rfl⟩ := List.exists_cons_of_ne_nil begins
    rw [start] at parts
    obtain rfl : c = d := (List.cons.inj parts).1
    rw [collect, awaits.item plain.before visible other]
    obtain failed | ⟨value, found⟩ := stopped
    · simp only [failed]
    · simp only [found]
      exact collect_nothing budget false value blank_nil
  · right
    simp only [List.length_append] at short
    have within : part.text.length ≤ size := by
      omega
    have endsBegun : Text.Ends continuesNumber (begun ++ missing) := by
      rw [← left]
      exact ends_append plain.after ends
    have item := read within begun (ends_front endsBegun)
    refine ⟨begun, left, by omega, ?_⟩
    rw [start, List.cons_append] at item ⊢
    rw [collect, awaits.item plain.before visible other]
    simp only [item]

variable (more : missing ≠ [])
include more

theorem eq_nil_of_singleton {c : Char} (cut : [c] = front ++ missing) : front = [] := by
  obtain ⟨nothing, -⟩ | ⟨rest, -, left⟩ := List.cons_eq_append_iff.1 cut
  · exact nothing
  · exact absurd (List.append_eq_nil_iff.1 left.symm).2 more

/-- The beginning of what stands behind a part has no closing bracket. -/
theorem collect_followers_cut (h : IsClosing closing) {found : α} {parts : List Part}
    (sequenced : Sequenced size item found (parts.map Part.text))
    (plain : ∀ part ∈ parts, part.Plain closing) {blank : List Char} (white : Blank blank)
    (cut : blank ++ (followers parts ++ [closing]) = front ++ missing) (short : front.length ≤ size)
    (budget : Nat) : collect closing item budget false found front = .error .truncated := by
  induction parts generalizing found blank front budget with
  | nil =>
    obtain ⟨begun, rfl, left⟩ | ⟨rest, rfl, -⟩ := List.append_eq_append_iff.1 cut
    · rw [eq_nil_of_singleton more left, List.append_nil]
      exact collect_nothing budget false found white
    · exact collect_nothing budget false found (blank_front white)
  | cons part parts ih =>
    have first := plain part List.mem_cons_self
    obtain _ | ⟨read, runsOut, others⟩ := sequenced
    obtain ⟨begun, rfl, left⟩ | ⟨rest, rfl, -⟩ := List.append_eq_append_iff.1 cut
    · rw [followers, List.cons_append, List.append_assoc, List.cons_eq_append_iff] at left
      obtain ⟨rfl, -⟩ | ⟨begun, rfl, left⟩ := left
      · rw [List.append_nil]
        exact collect_nothing budget false found white
      · cases budget with
        | zero => rfl
        | succ budget =>
          rw [List.append_cons] at short ⊢
          rw [List.length_append] at short
          obtain stopped | ⟨rest, left, within, stopped⟩ :=
            collect_cutPart (awaits_follower h white) first read runsOut (ends_followers h parts [])
              left (by omega) budget
          · exact stopped
          · rw [stopped]
            exact ih others (fun other member => plain other (List.mem_cons_of_mem _ member))
              first.after left within budget
    · exact collect_nothing budget false found (blank_front white)

/-- The beginning of a list has no closing bracket. -/
theorem collect_listed_cut (h : IsClosing closing) {found : α} {parts : List Part}
    (sequenced : Sequenced size item found (parts.map Part.text))
    (plain : ∀ part ∈ parts, part.Plain closing)
    (cut : listed parts ++ [closing] = front ++ missing) (short : front.length ≤ size)
    (budget : Nat) : collect closing item budget true found front = .error .truncated := by
  cases parts with
  | nil =>
    rw [eq_nil_of_singleton more cut]
    exact collect_nothing budget true found blank_nil
  | cons part parts =>
    have first := plain part List.mem_cons_self
    obtain _ | ⟨read, runsOut, others⟩ := sequenced
    rw [listed, List.append_assoc] at cut
    cases budget with
    | zero => rfl
    | succ budget =>
      obtain stopped | ⟨rest, left, within, stopped⟩ :=
        collect_cutPart (awaits_first closing) first read runsOut (ends_followers h parts []) cut
          short budget
      · exact stopped
      · rw [List.nil_append] at stopped
        rw [stopped]
        exact collect_followers_cut more h others
          (fun other member => plain other (List.mem_cons_of_mem _ member)) first.after left within
          budget

end

/-! ## Items in order -/

section

variable {β : Type} {item : List Char → Except Failure (α × List Char)} {spell : β → List Char}
  {meaning : β → α} {size : Nat} {sources : List β}

theorem runsOut_push {text : List Char} (runsOut : RunsOut size item text) (found : List α) :
    RunsOut size (push item found) text := by
  intro front missing cut begun more short
  rw [push]
  obtain stopped | ⟨value, read⟩ := runsOut front missing cut begun more short
  · rw [stopped]
    exact .inl rfl
  · rw [read]
    exact .inr ⟨_, rfl⟩

theorem sequenced_push
    (read : ∀ source ∈ sources, (spell source).length ≤ size → ∀ rest,
      Text.Ends continuesNumber rest → item (spell source ++ rest) = .ok (meaning source, rest))
    (runsOut : ∀ source ∈ sources, RunsOut size item (spell source)) (found : List α) :
    Sequenced size (push item) found (sources.map spell) := by
  induction sources generalizing found with
  | nil => exact .nil found
  | cons source sources ih =>
    have first : (spell source).length ≤ size → ∀ rest, Text.Ends continuesNumber rest →
        push item found (spell source ++ rest) = .ok (meaning source :: found, rest) := by
      intro short rest ends
      rw [push, read source List.mem_cons_self short rest ends]
      rfl
    have others := ih (fun other member => read other (List.mem_cons_of_mem _ member))
      (fun other member => runsOut other (List.mem_cons_of_mem _ member)) (meaning source :: found)
    exact .cons first (runsOut_push (runsOut source List.mem_cons_self) found) others

/-- Sources laid out as a list run out where their text does. -/
theorem collect_laidOut_cut (meaning : β → α) (h : IsClosing closing) (depth : Nat)
    (opens : ∀ source ∈ sources, Opens (spell source))
    (read : ∀ source ∈ sources, (spell source).length ≤ size → ∀ rest,
      Text.Ends continuesNumber rest → item (spell source ++ rest) = .ok (meaning source, rest))
    (runsOut : ∀ source ∈ sources, RunsOut size item (spell source)) {front missing : List Char}
    (more : missing ≠ [])
    (cut : listed (laidOut depth (sources.map spell)) ++ [closing] = front ++ missing)
    (short : front.length ≤ size) (budget : Nat) :
    collect closing (push item) budget true [] front = .error .truncated := by
  have sequenced := sequenced_push read runsOut []
  rw [← laidOut_text depth (sources.map spell)] at sequenced
  exact collect_listed_cut more h sequenced (plain_laidOut h depth opens) cut short budget

end

end

/-! ## Members -/

/-- The beginning of a member has no complete key, no colon, or only the beginning of its value. -/
theorem memberText_cut (care : Care) {depth : Nat} {entry : String × Value}
    {front missing : List Char} (cut : memberText depth entry = front ++ missing)
    (begun : front ≠ []) :
    key care front = .error .truncated ∨ ∃ behind, key care front = .ok (entry.1, behind) ∧
      (colon behind = .error .truncated ∨
        ∃ rest, colon behind = .ok rest ∧ ' ' :: itemText depth entry.2 = rest ++ missing ∧
          rest.length ≤ front.length) := by
  rw [memberText, List.append_eq_append_iff] at cut
  obtain ⟨behind, rfl, left⟩ | ⟨rest, same, left⟩ := cut
  · refine .inr ⟨behind, key_quote care entry.1 behind, ?_⟩
    rw [List.cons_eq_append_iff] at left
    obtain ⟨rfl, -⟩ | ⟨rest, rfl, left⟩ := left
    · exact .inl rfl
    · refine .inr ⟨rest, colon_colon rest, left, ?_⟩
      simp only [List.length_append, List.length_cons]
      omega
  · by_cases whole : rest = []
    · rw [whole, List.append_nil] at same
      have read := key_quote care entry.1 []
      rw [List.append_nil, same] at read
      exact .inr ⟨[], read, .inl rfl⟩
    · exact .inl (key_cut whole care same begun)

/-- A member runs out where its value does. -/
theorem runsOut_keyed {α β : Type} {care : Care} {size depth : Nat} {entry : String × Value}
    {item : List Char → Except Failure (β × List Char)}
    {read : List Char → Except Failure (α × List Char)} {keep : α → β}
    (keyed : Keyed care item entry.1 read keep) (nothing : read [] = .error .truncated)
    (runsOut : RunsOut size read (' ' :: itemText depth entry.2)) :
    RunsOut size item (memberText depth entry) := by
  intro front missing cut begun more short
  obtain failed | ⟨behind, key, failed | ⟨rest, colon, left, within⟩⟩ :=
    memberText_cut care cut begun
  · exact .inl (keyed.failed failed)
  · left
    rw [keyed.named key, failed]
    rfl
  · rw [keyed.named key, colon, Except.bind]
    by_cases empty : rest = []
    · rw [empty, nothing]
      exact .inl rfl
    · obtain failed | ⟨value, found⟩ :=
        runsOut rest missing left empty more (Nat.le_trans within short)
      · rw [failed]
        exact .inl rfl
      · rw [found]
        exact .inr ⟨_, rfl⟩

/-! ## Values -/

section

variable {size levels : Nat}

theorem value_nothing (care : Care) (budget levels : Nat) {blank : List Char}
    (white : Blank blank) : value care budget levels blank = .error .truncated := by
  unfold value
  rw [skipBlank_blank white]
  rfl

theorem member_cut {depth : Nat} {entry : String × Value}
    (runsOut : RunsOut size (value .kept size levels) (itemText depth entry.2)) :
    RunsOut size (member .kept (value .kept size levels)) (memberText depth entry) := by
  have nothing := value_nothing .kept size levels blank_nil
  have behind := runsOut_space (value_blank .kept size levels blank_space) nothing runsOut
  exact runsOut_keyed (keyed_member .kept _ _) nothing behind

/-- The beginning of a keyword is no value. -/
theorem value_keyword_cut {c : Char} {expected front missing : List Char} {found : Value}
    (word : ∀ rest, value .kept size levels (c :: rest) =
      (keyword expected rest).map fun rest => (found, rest))
    (cut : c :: expected = front ++ missing) (begun : front ≠ []) (more : missing ≠ []) :
    value .kept size levels front = .error .truncated := by
  obtain ⟨behind, rfl, left⟩ := cut_cons cut begun
  rw [word, keyword_cut more left]
  rfl

/-- Only the beginning of an integer may be a value itself. -/
theorem value_pretty_cut {v : Value} (fits : Fits levels v) (depth : Nat)
    {front missing : List Char} (cut : (v.pretty depth).toList = front ++ missing)
    (begun : front ≠ []) (more : missing ≠ []) (short : front.length ≤ size) :
    value .kept size levels front = .error .truncated ∨
      (∃ n, v = .integer n) ∧ ∃ found, value .kept size levels front = .ok (found, []) := by
  induction fits generalizing depth front missing with
  | @null levels =>
    rw [pretty_null] at cut
    exact .inl (value_keyword_cut
      (fun rest => value_scalar .kept size levels rest rfl (by decide) (by decide)) cut begun more)
  | @bool levels value =>
    cases value
    · rw [pretty_false] at cut
      exact .inl (value_keyword_cut
        (fun rest => value_scalar .kept size levels rest rfl (by decide) (by decide)) cut begun more)
    · rw [pretty_true] at cut
      exact .inl (value_keyword_cut
        (fun rest => value_scalar .kept size levels rest rfl (by decide) (by decide)) cut begun more)
  | @integer levels value small =>
    rw [pretty_integer] at cut
    have stopped := scalar_integer_cut small cut begun
    obtain ⟨c, behind, rfl⟩ := List.exists_cons_of_ne_nil begun
    obtain ⟨first, rest, parts, numeric⟩ := integer_start value
    rw [parts] at cut
    obtain rfl : first = c := (List.cons.inj cut).1
    rw [value_numeric .kept size levels behind numeric]
    obtain failed | ⟨found, taken⟩ := stopped
    · exact .inl failed
    · exact .inr ⟨⟨value, rfl⟩, _, taken⟩
  | @string levels value =>
    rw [pretty_string] at cut
    obtain ⟨body, rfl, read⟩ := quote_cut more .kept cut begun
    left
    rw [value_scalar .kept size levels body rfl (by decide) (by decide), scalar, read]
    rfl
  | @array levels items each ih =>
    rw [pretty_array] at cut
    obtain ⟨behind, rfl, left⟩ := cut_cons cut begun
    have opens : ∀ item ∈ items, Opens (itemText (depth + 1) item) :=
      fun item among => opens_pretty (each item among) (depth + 1)
    have stopped := collect_laidOut_cut id (.inl rfl) depth opens
      (fun item among short rest ends =>
        value_pretty .kept (each item among) (depth + 1) short ends)
      (fun item among front missing cut begun more short =>
        (ih item among (depth + 1) cut begun more short).imp_right And.right)
      more left (Nat.le_of_succ_le short) size
    left
    rw [value_bracket, Json.items, stopped]
    rfl
  | @object levels members each ih =>
    rw [pretty_object] at cut
    obtain ⟨behind, rfl, left⟩ := cut_cons cut begun
    have opens : ∀ entry ∈ members, Opens (memberText (depth + 1) entry) :=
      fun entry _ => opens_quote entry.1 _
    have stopped := collect_laidOut_cut id (.inr rfl) depth opens
      (fun entry among short rest ends =>
        member_memberText .kept (depth + 1)
          (value_pretty .kept (each entry among) (depth + 1)
            (Nat.le_trans (itemText_le_memberText (depth + 1) entry) short) ends))
      (fun entry among => member_cut fun front missing cut begun more short =>
        (ih entry among (depth + 1) cut begun more short).imp_right And.right)
      more left (Nat.le_of_succ_le short) size
    left
    rw [value_brace, Json.members, stopped]
    rfl

end

end TickMachine.Json
