import TickMachine.Proofs.Json.Layout
import TickMachine.Proofs.Json.Strings

/-! # Printed values read back

The reader finds a value again in the text that the printer lays out for it. The proof goes by
induction on the nesting of the value: what stands behind a value matters only as far as it must
not continue a number. -/

namespace TickMachine.Json

open Decimal (digits)

/-- The values with at most `levels` arrays and objects inside each other whose numbers are integers
of 64 bits. -/
inductive Fits : (levels : Nat) → Value → Prop
  | null {levels : Nat} : Fits levels .null
  | bool {levels : Nat} (value : Bool) : Fits levels (.bool value)
  | integer {levels : Nat} {value : Int} (small : value.natAbs < UInt64.size) :
    Fits levels (.integer value)
  | string {levels : Nat} (value : String) : Fits levels (.string value)
  | array {levels : Nat} {items : List Value} (each : ∀ item ∈ items, Fits levels item) :
    Fits (levels + 1) (.array items)
  | object {levels : Nat} {members : List (String × Value)}
    (each : ∀ member ∈ members, Fits levels member.2) : Fits (levels + 1) (.object members)

/-- The text starts with a character that is neither white space nor a closing bracket. -/
def Opens (text : List Char) : Prop :=
  ∃ c rest, text = c :: rest ∧ isBlank c = false ∧ c ≠ ']' ∧ c ≠ '\x7d'

theorem Opens.start {text : List Char} (opens : Opens text) {closing : Char}
    (h : IsClosing closing) : ∃ c rest, text = c :: rest ∧ isBlank c = false ∧ c ≠ closing := by
  obtain ⟨c, rest, parts, visible, bracket, brace⟩ := opens
  refine ⟨c, rest, parts, visible, ?_⟩
  rcases h with rfl | rfl
  · exact bracket
  · exact brace

/-! ## Scalars -/

/-- An integer starts with its sign or with a digit. -/
theorem integer_start (value : Int) :
    ∃ c rest, (Decimal.ofInt value).toList = c :: rest ∧ (c = '-' ∨ c.isDigit) := by
  rcases Int.eq_nat_or_neg value with ⟨n, rfl | rfl⟩
  · obtain ⟨c, rest, parts, digit⟩ := Decimal.exists_digits_eq_cons n
    exact ⟨c, rest, by rw [Decimal.toList_ofInt_ofNat, parts], .inr digit⟩
  · cases n with
    | zero => exact ⟨'0', [], rfl, .inr rfl⟩
    | succ n => exact ⟨'-', _, Decimal.toList_ofInt_neg _ (Nat.succ_pos n), .inl rfl⟩

theorem isBlank_of_numeric {c : Char} (h : c = '-' ∨ c.isDigit) : isBlank c = false := by
  rcases h with rfl | digit
  · rfl
  · rw [Bool.eq_false_iff]
    intro blank
    simp only [isBlank, Bool.or_eq_true, beq_iff_eq] at blank
    rcases blank with ((rfl | rfl) | rfl) | rfl <;> cases digit

theorem scalar_numeric (care : Care) {c : Char} (rest : List Char) (h : c = '-' ∨ c.isDigit) :
    scalar care (c :: rest) =
      (number care (c :: rest)).map fun (found, rest) => (.number found, rest) := by
  have other : ∀ d : Char, d ≠ '-' → d.isDigit = false → c ≠ d := by
    rintro d sign digit rfl
    rcases h with rfl | h
    · exact sign rfl
    · rw [h] at digit
      cases digit
  unfold scalar
  split
  case h_8 parts =>
    cases parts
    exact if_pos h
  all_goals
    next parts =>
    cases parts <;> exact absurd rfl (other _ (by decide) (by decide))

theorem scalar_integer (care : Care) {value : Int} (small : value.natAbs < UInt64.size)
    {rest : List Char} (ends : Text.Ends continuesNumber rest) :
    scalar care ((Decimal.ofInt value).toList ++ rest) = .ok (.integer value, rest) := by
  obtain ⟨c, behind, parts, numeric⟩ := integer_start value
  have read := number_integer care small ends
  rw [parts, List.cons_append] at read ⊢
  rw [scalar_numeric care _ numeric, read]
  rfl

theorem integer_of_scalar {α : Type} {represent : Int → Option α} {value : Int} {meaning : α}
    {text rest : List Char} (read : scalar .kept (skipBlank text) = .ok (.integer value, rest))
    (meant : represent value = some meaning) : integer represent text = .ok (meaning, rest) := by
  rw [integer, read]
  simp only [bind, Except.bind, Value.integer, meant, pure, Except.pure]

/-- An integer is read as what it represents. -/
theorem integer_of_represent {α : Type} {represent : Int → Option α} {value : Int} {meaning : α}
    (small : value.natAbs < UInt64.size) (meant : represent value = some meaning)
    {blank rest : List Char}
    (white : Blank blank) (ends : Text.Ends continuesNumber rest) :
    integer represent (blank ++ ((Decimal.ofInt value).toList ++ rest)) = .ok (meaning, rest) := by
  obtain ⟨c, behind, parts, numeric⟩ := integer_start value
  have skipped : skipBlank (blank ++ ((Decimal.ofInt value).toList ++ rest)) =
      (Decimal.ofInt value).toList ++ rest := by
    rw [parts]
    exact skipBlank_append white (Text.ends_cons (isBlank_of_numeric numeric))
  refine integer_of_scalar ?_ meant
  rw [skipped]
  exact scalar_integer .kept small ends

theorem quote_toList (text : String) :
    (quote text).toList = '"' :: (text.toList.flatMap fun c => (escapeChar c).toList) ++ ['"'] := by
  simp only [quote, String.toList_append, String.toList_join, List.flatMap_map]
  rfl

theorem stringBody_quote (care : Care) (text : String) (rest : List Char) :
    ∃ body, (quote text).toList ++ rest = '"' :: body ∧
      stringBody care [] body = .ok (text, rest) := by
  refine ⟨(text.toList.flatMap fun c => (escapeChar c).toList) ++ '"' :: rest, ?_, ?_⟩
  · rw [quote_toList]
    simp
  · rw [stringBody_spelled care rest (spelled_escaped text.toList)]
    simp

theorem key_quote (care : Care) (name : String) (rest : List Char) :
    key care ((quote name).toList ++ rest) = .ok (name, rest) := by
  obtain ⟨body, parts, read⟩ := stringBody_quote care name rest
  rw [parts, key, read]

theorem scalar_quote (care : Care) (text : String) (rest : List Char) :
    scalar care ((quote text).toList ++ rest) = .ok (.string text, rest) := by
  obtain ⟨body, parts, read⟩ := stringBody_quote care text rest
  rw [parts, scalar, read]
  rfl

/-! ## Values -/

theorem skipBlank_of_visible {c : Char} (rest : List Char) (visible : isBlank c = false) :
    skipBlank (c :: rest) = c :: rest :=
  skipBlank_append blank_nil (Text.ends_cons visible)

theorem blank_space : Blank [' '] := by
  intro c member
  rw [List.mem_singleton.1 member]
  rfl

theorem colon_colon (rest : List Char) : colon (':' :: rest) = .ok rest := by
  rw [colon, skipBlank_of_visible rest rfl]
  rfl

/-- White space in front of a value does not matter. -/
theorem value_blank (care : Care) (budget levels : Nat) {blank : List Char} (white : Blank blank)
    (text : List Char) :
    value care budget levels (blank ++ text) = value care budget levels text := by
  have skipped : skipBlank (blank ++ text) = skipBlank text :=
    List.dropWhile_append_of_pos white
  unfold value
  rw [skipped]

/-- A value that is not a bracket stands for itself. -/
theorem value_scalar (care : Care) (budget levels : Nat) {c : Char} (rest : List Char)
    (visible : isBlank c = false) (bracket : c ≠ '[') (brace : c ≠ '\x7b') :
    value care budget levels (c :: rest) = scalar care (c :: rest) := by
  unfold value
  rw [skipBlank_of_visible rest visible]
  split
  case h_5 => rfl
  all_goals
    next parts =>
    cases parts
    contradiction

/-- A value that starts as a number is a number. -/
theorem value_numeric (care : Care) (budget levels : Nat) {c : Char} (rest : List Char)
    (numeric : c = '-' ∨ c.isDigit) :
    value care budget levels (c :: rest) = scalar care (c :: rest) := by
  refine value_scalar care budget levels rest (isBlank_of_numeric numeric) ?_ ?_
  all_goals
    rintro rfl
    exact absurd numeric (by decide)

theorem value_bracket (care : Care) (budget levels : Nat) (rest : List Char) :
    value care budget (levels + 1) ('[' :: rest) =
      (items budget (value care budget levels) rest).map fun (found, rest) =>
        (.array found, rest) := by
  rw [value.eq_def, skipBlank_of_visible rest rfl]
  rfl

theorem value_brace (care : Care) (budget levels : Nat) (rest : List Char) :
    value care budget (levels + 1) ('\x7b' :: rest) =
      (members care budget (value care budget levels) rest).map fun (found, rest) =>
        (.object found, rest) := by
  rw [value.eq_def, skipBlank_of_visible rest rfl]
  rfl

/-- A reader of members: behind a key of this name it reads the colon and a value, and keeps the
value. -/
structure Keyed {α β : Type} (care : Care) (item : List Char → Except Failure (β × List Char))
    (name : String) (read : List Char → Except Failure (α × List Char)) (keep : α → β) : Prop where
  failed {text : List Char} {failure : Failure} (refused : key care text = .error failure) :
    item text = .error failure
  named {text behind : List Char} (found : key care text = .ok (name, behind)) :
    item text = (colon behind).bind fun rest =>
      (read rest).map fun (value, rest) => (keep value, rest)

theorem keyed_member (care : Care) (item : List Char → Except Failure (Value × List Char))
    (name : String) : Keyed care (member care item) name item fun value => (name, value) where
  failed := by
    intro text failure refused
    rw [member, refused]
    rfl
  named := by
    intro text behind found
    simp only [member, found, bind, Except.bind]
    rfl

/-! ## The printer -/

theorem opens_ofInt (value : Int) : Opens (Decimal.ofInt value).toList := by
  obtain ⟨c, rest, parts, numeric⟩ := integer_start value
  refine ⟨c, rest, parts, isBlank_of_numeric numeric, ?_⟩
  constructor
  all_goals
    rintro rfl
    exact absurd numeric (by decide)

theorem opens_quote (text : String) (rest : List Char) : Opens ((quote text).toList ++ rest) := by
  rw [quote_toList]
  exact ⟨_, _, rfl, rfl, by decide, by decide⟩

section

variable (depth : Nat)

theorem pretty_scalar {v : Value} (noArray : ∀ items, v ≠ .array items)
    (noObject : ∀ members, v ≠ .object members) : v.pretty depth = v.printScalar := by
  rw [Value.pretty]
  · exact noArray
  · exact noObject

theorem pretty_null : (Value.null.pretty depth).toList = ['n', 'u', 'l', 'l'] :=
  congrArg String.toList (pretty_scalar (v := .null) depth nofun nofun)

theorem pretty_true : ((Value.bool true).pretty depth).toList = ['t', 'r', 'u', 'e'] :=
  congrArg String.toList (pretty_scalar (v := .bool true) depth nofun nofun)

theorem pretty_false : ((Value.bool false).pretty depth).toList = ['f', 'a', 'l', 's', 'e'] :=
  congrArg String.toList (pretty_scalar (v := .bool false) depth nofun nofun)

theorem pretty_integer (value : Int) :
    ((Value.integer value).pretty depth).toList = (Decimal.ofInt value).toList :=
  congrArg String.toList (pretty_scalar (v := .integer value) depth nofun nofun)

theorem pretty_string (value : String) :
    ((Value.string value).pretty depth).toList = (quote value).toList :=
  congrArg String.toList (pretty_scalar (v := .string value) depth nofun nofun)

/-- The text of an item of an array. -/
def itemText (depth : Nat) (item : Value) : List Char := (item.pretty depth).toList

theorem pretty_array (items : List Value) :
    ((Value.array items).pretty depth).toList =
      '[' :: (listed (laidOut depth (items.map (itemText (depth + 1)))) ++ [']']) := by
  rw [Value.pretty, block_toList, List.map_map]
  rfl

/-- The text of a member of an object. -/
def memberText (depth : Nat) (member : String × Value) : List Char :=
  (quote member.1).toList ++ ':' :: ' ' :: itemText depth member.2

theorem itemText_le_memberText (member : String × Value) :
    (itemText depth member.2).length ≤ (memberText depth member).length := by
  simp only [memberText, List.length_append, List.length_cons]
  omega

theorem pretty_object (members : List (String × Value)) :
    ((Value.object members).pretty depth).toList = '\x7b' ::
      (listed (laidOut depth (members.map (memberText (depth + 1)))) ++ ['\x7d']) := by
  have texts : ∀ member : String × Value,
      (quote member.1 ++ ": " ++ member.2.pretty (depth + 1)).toList =
        memberText (depth + 1) member := by
    intro member
    rw [String.toList_append, String.toList_append, List.append_assoc]
    rfl
  rw [Value.pretty, block_toList, List.map_map]
  simp only [Function.comp_def, texts]
  rfl

end

/-- A printed value can be told from white space and from a closing bracket. -/
theorem opens_pretty {levels : Nat} {v : Value} (fits : Fits levels v) (depth : Nat) :
    Opens (v.pretty depth).toList := by
  cases fits with
  | null =>
    rw [pretty_null]
    exact ⟨_, _, rfl, rfl, by decide, by decide⟩
  | bool value =>
    cases value
    · rw [pretty_false]
      exact ⟨_, _, rfl, rfl, by decide, by decide⟩
    · rw [pretty_true]
      exact ⟨_, _, rfl, rfl, by decide, by decide⟩
  | @integer _ value small =>
    rw [pretty_integer]
    exact opens_ofInt value
  | string value =>
    have opens := opens_quote value []
    rwa [List.append_nil, ← pretty_string depth] at opens
  | array each =>
    rw [pretty_array]
    exact ⟨_, _, rfl, rfl, by decide, by decide⟩
  | object each =>
    rw [pretty_object]
    exact ⟨_, _, rfl, rfl, by decide, by decide⟩

theorem plain_laidOut {β : Type} {spell : β → List Char} {closing : Char} (h : IsClosing closing)
    {sources : List β} (depth : Nat) (opens : ∀ source ∈ sources, Opens (spell source)) :
    ∀ part ∈ laidOut depth (sources.map spell), part.Plain closing := by
  refine laidOut_plain depth ?_
  intro text member
  obtain ⟨source, among, rfl⟩ := List.mem_map.1 member
  exact (opens source among).start h

/-- Sources laid out as a list are read in their order. -/
theorem collect_laidOut {α β : Type} (item : List Char → Except Failure (α × List Char))
    (spell : β → List Char) (meaning : β → α) {closing : Char} (h : IsClosing closing)
    {sources : List β} (depth : Nat) (opens : ∀ source ∈ sources, Opens (spell source))
    (read : ∀ source ∈ sources, ∀ rest, Text.Ends continuesNumber rest →
      item (spell source ++ rest) = .ok (meaning source, rest))
    {budget : Nat} (enough : (listed (laidOut depth (sources.map spell))).length + 1 < budget)
    (rest : List Char) :
    (collect closing (push item) budget true []
        (listed (laidOut depth (sources.map spell)) ++ closing :: rest)).map
      (fun (found, rest) => (found.reverse, rest)) = .ok (sources.map meaning, rest) := by
  exact collect_push h (laidOut_text depth _) read (plain_laidOut h depth opens)
    (Nat.lt_of_le_of_lt (length_listed _) enough) rest

/-- A member is read when its value is. -/
theorem member_memberText (care : Care) (depth : Nat) {budget levels : Nat}
    {entry : String × Value} {rest : List Char}
    (read : value care budget levels (itemText depth entry.2 ++ rest) = .ok (entry.2, rest)) :
    member care (value care budget levels) (memberText depth entry ++ rest) =
      .ok (entry, rest) := by
  have behind : value care budget levels (' ' :: (itemText depth entry.2 ++ rest)) =
      .ok (entry.2, rest) := by
    rw [← read]
    exact value_blank care budget levels blank_space _
  rw [memberText, List.append_assoc, (keyed_member care _ _).named (key_quote care entry.1 _)]
  simp only [List.cons_append, colon_colon, Except.bind, behind]
  rfl

/-- The reader finds a value in the text that the printer lays out for it. -/
theorem value_pretty (care : Care) {levels : Nat} {v : Value} (fits : Fits levels v) (depth : Nat)
    {budget : Nat} (enough : (v.pretty depth).toList.length ≤ budget) {rest : List Char}
    (ends : Text.Ends continuesNumber rest) :
    value care budget levels ((v.pretty depth).toList ++ rest) = .ok (v, rest) := by
  induction fits generalizing depth rest with
  | null =>
    rw [pretty_null]
    exact value_scalar care budget _ _ rfl (by decide) (by decide)
  | bool value =>
    cases value
    · rw [pretty_false]
      exact value_scalar care budget _ _ rfl (by decide) (by decide)
    · rw [pretty_true]
      exact value_scalar care budget _ _ rfl (by decide) (by decide)
  | @integer levels value small =>
    obtain ⟨c, behind, parts, numeric⟩ := integer_start value
    have read := scalar_integer care small ends
    rw [pretty_integer]
    rw [parts, List.cons_append] at read ⊢
    rw [value_numeric care budget levels _ numeric, read]
  | @string levels value =>
    obtain ⟨body, parts, _⟩ := stringBody_quote care value rest
    have read := scalar_quote care value rest
    rw [pretty_string]
    rw [parts] at read ⊢
    rw [value_scalar care budget levels _ rfl (by decide) (by decide), read]
  | @array levels items each ih =>
    rw [pretty_array] at enough ⊢
    simp only [List.length_cons, List.length_append, List.length_nil] at enough
    have short : ∀ item ∈ items, (itemText (depth + 1) item).length ≤ budget := by
      intro item among
      have := length_spell_le (itemText (depth + 1)) depth among
      omega
    have read := collect_laidOut (value care budget levels) (itemText (depth + 1)) id (.inl rfl)
      depth (fun item among => opens_pretty (each item among) (depth + 1))
      (fun item among rest ends => ih item among (depth + 1) (short item among) ends) enough rest
    rw [List.cons_append, value_bracket, List.append_assoc]
    rw [Json.items, List.singleton_append, read, List.map_id]
    rfl
  | @object levels members each ih =>
    rw [pretty_object] at enough ⊢
    simp only [List.length_cons, List.length_append, List.length_nil] at enough
    have short : ∀ entry ∈ members, (itemText (depth + 1) entry.2).length ≤ budget := by
      intro entry among
      have inner := itemText_le_memberText (depth + 1) entry
      have := length_spell_le (memberText (depth + 1)) depth among
      omega
    have read := collect_laidOut (member care (value care budget levels)) (memberText (depth + 1))
      id (.inr rfl) depth (fun entry _ => opens_quote entry.1 _)
      (fun entry among rest ends => member_memberText care (depth + 1)
        (ih entry among (depth + 1) (short entry among) ends))
      enough rest
    rw [List.cons_append, value_brace, List.append_assoc]
    rw [Json.members, List.singleton_append, read, List.map_id]
    rfl

end TickMachine.Json
