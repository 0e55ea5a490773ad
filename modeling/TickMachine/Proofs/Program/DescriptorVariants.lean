import TickMachine.Proofs.Program.AcceptedDescriptors
import TickMachine.Proofs.Program.Documents

/-! # Descriptors written by hand

However a descriptor is written, in whatever order, with white space between its tokens, with
escapes in its strings and keys, and with members that nothing is known about, the reader finds the
executable that the document gives, and refuses the text of a document that gives none. -/

namespace TickMachine.Document

open Json Descriptor

/-! ## Texts -/

/-- The value of the text beside the numbers. -/
def textNote : Option String → Note
  | none => .null
  | some text => .string text

/-- The texts of an integer: its decimal digits, with a minus sign in front of a negative one. -/
def WrittenNumber (value : Int) (text : List Char) : Prop := text = (Decimal.ofInt value).toList

/-- The texts of a list of numbers. -/
abbrev WrittenNumbers : List Int → List Char → Prop := WrittenList '[' ']' WrittenNumber

/-- The texts of a member of an entry. -/
inductive WordMember.Written : WordMember → List Char → Prop
  | raw {numbers : List Int} {text : List Char}
    (member : WrittenMember "raw" (WrittenNumbers numbers) text) : Written (.raw numbers) text
  | formatted {formatted : Option String} {text : List Char}
    (member : WrittenMember "formatted" (textNote formatted).Written text) :
    Written (.formatted formatted) text
  | other {key : String} {unknown : key ≠ "raw" ∧ key ≠ "formatted"} {note : Note}
    {text : List Char} (member : WrittenMember key note.Written text) :
    Written (.other key unknown note) text

/-- The texts of an entry. -/
inductive Entry.Written : Entry → List Char → Prop
  | bare {numbers : List Int} {text : List Char} (list : WrittenNumbers numbers text) :
    Written (.bare numbers) text
  | annotated {members : List WordMember} {text : List Char}
    (list : WrittenList '\x7b' '\x7d' WordMember.Written members text) :
    Written (.annotated members) text

/-- The texts of a member of a descriptor. -/
inductive Member.Written : Member → List Char → Prop
  | start {value : Int} {text : List Char}
    (member : WrittenMember "start" (WrittenNumber value) text) : Written (.start value) text
  | program {entries : List Entry} {text : List Char}
    (member : WrittenMember "program" (WrittenList '[' ']' Entry.Written entries) text) :
    Written (.program entries) text
  | other {key : String} {unknown : key ≠ "start" ∧ key ≠ "program"} {note : Note}
    {text : List Char} (member : WrittenMember key note.Written text) :
    Written (.other key unknown note) text

/-- The texts of a descriptor. -/
inductive Written (members : List Member) : List Char → Prop
  | object {before text after : List Char} (white : Blank before)
    (list : WrittenList '\x7b' '\x7d' Member.Written members text) (white' : Blank after) :
    Written members (before ++ (text ++ after))

/-! ## Entries -/

/-- The value of a list of numbers, unless one of them is out of the range of floating point. -/
def numbersValue? (numbers : List Int) : Option Value :=
  (numbers.mapM integerValue?).map Value.array

/-- The value of a member of an entry, with its key. -/
def WordMember.value? : WordMember → Option (String × Value)
  | .raw numbers => (numbersValue? numbers).map fun value => ("raw", value)
  | .formatted text => some ("formatted", (textNote text).value)
  | .other key _ note => some (key, note.value)

/-- The value of an entry. -/
def Entry.value? : Entry → Option Value
  | .bare numbers => numbersValue? numbers
  | .annotated members => (members.mapM WordMember.value?).map Value.object

variable {size : Nat} {text : List Char}

theorem reads_numbers {levels : Nat} {numbers : List Int} (written : WrittenNumbers numbers text)
    (short : text.length ≤ size) :
    Reads (value .kept size (levels + 1)) text (numbersValue? numbers) := by
  refine reads_array ?_ ?_ written short
  · rintro value text rfl
    exact opens_ofInt value
  · rintro number text rfl -
    exact value_ofInt size levels number

theorem reads_note {key : String} {note : Note} (writes : WrittenMember key note.Written text)
    (levels : Nat) :
    Reads (member .kept (value .kept size levels)) text (some (key, note.value)) := by
  refine reads_keyed (keyed_member .kept _ _) writes (some note.value) ?_
  intro blank inner white written _
  refine reads_blank ?_ white
  intro rest ends
  rw [value_note written size levels rest]
  rfl

theorem WordMember.Written.opens {member : WordMember} (written : member.Written text) :
    Opens text := by
  cases written with
  | raw member => exact member.opens
  | formatted member => exact member.opens
  | other member => exact member.opens

theorem WordMember.Written.reads {levels : Nat} {source : WordMember}
    (written : source.Written text) (short : text.length ≤ size) :
    Reads (member .kept (value .kept size (levels + 1))) text source.value? := by
  cases written with
  | raw member =>
    refine reads_keyed (keyed_member .kept _ _) member _ ?_
    intro blank inner white list within
    exact reads_blank (reads_numbers list (Nat.le_trans within short)) white
  | formatted member => exact reads_note member (levels + 1)
  | other member => exact reads_note member (levels + 1)

theorem Entry.Written.opens {entry : Entry} (written : entry.Written text) : Opens text := by
  cases written with
  | bare list => exact list.opens (.inl rfl)
  | annotated list => exact list.opens (.inr rfl)

theorem Entry.Written.reads {entry : Entry} (written : entry.Written text)
    (short : text.length ≤ size) : Reads (value .kept size entryLevels) text entry.value? := by
  cases written with
  | bare list => exact reads_numbers list short
  | annotated list =>
    exact reads_object (fun _ _ written => written.opens)
      (fun _ _ written short => written.reads short) list short

/-! ## Words -/

theorem machineValue?_eq (value : Value) :
    machineValue? value = value.represented? Decimal.toInt32? := by
  cases value with
  | number number => cases number <;> rfl
  | null => rfl
  | bool value => rfl
  | string value => rfl
  | array items => rfl
  | object members => rfl

theorem natAbs_lt_of_toInt32? (value : Int) (found : Int32)
    (fits : Decimal.toInt32? value = some found) : value.natAbs < UInt64.size := by
  by_cases outside : value < -2147483648 ∨ 2147483647 < value
  · rw [toInt32?_outside outside] at fits
    cases fits
  · refine Nat.lt_of_le_of_lt (m := 2147483648) ?_ (by decide)
    omega

/-- A list of numbers is read as the word with these numbers. -/
theorem word?_numbersValue? (numbers : List Int) :
    (numbersValue? numbers).bind Descriptor.word? = wordOf? numbers := by
  have each (value : Int) : (integerValue? value).bind machineValue? = Decimal.toInt32? value := by
    have same : machineValue? = Value.represented? Decimal.toInt32? := funext machineValue?_eq
    rw [same]
    exact represented?_integerValue? natAbs_lt_of_toInt32? value
  have all := mapM_bind_mapM integerValue? machineValue? numbers
  simp only [each] at all
  rw [wordOf?, ← all, numbersValue?, Option.bind_map, Option.bind_assoc]
  rfl

theorem valuesOf_cons (key : String) (member : String × Value) (members : List (String × Value)) :
    valuesOf key (member :: members) =
      if member.1 = key then member.2 :: valuesOf key members else valuesOf key members := by
  by_cases same : member.1 = key <;> simp [valuesOf, same]

theorem valuesOf_raw (members : List WordMember) :
    (members.mapM WordMember.value?).map (valuesOf "raw") =
      (members.filterMap WordMember.numbers?).mapM numbersValue? := by
  induction members with
  | nil => rfl
  | cons member members ih =>
    rw [List.mapM_cons]
    cases member with
    | raw numbers =>
      have first : (WordMember.raw numbers :: members).filterMap WordMember.numbers? =
          numbers :: members.filterMap WordMember.numbers? := rfl
      rw [first, List.mapM_cons, ← ih, WordMember.value?]
      cases numbersValue? numbers with
      | none => rfl
      | some value => cases members.mapM WordMember.value? <;> rfl
    | formatted text =>
      rw [List.filterMap_cons_none rfl, ← ih]
      cases members.mapM WordMember.value? <;> rfl
    | other key unknown note =>
      rw [List.filterMap_cons_none rfl, ← ih]
      cases members.mapM WordMember.value? with
      | none => rfl
      | some found =>
        have skipped := valuesOf_cons "raw" (key, note.value) found
        rw [if_neg unknown.1] at skipped
        exact congrArg some skipped

theorem valuesOf_formatted {members : List WordMember} {found : List (String × Value)}
    (read : members.mapM WordMember.value? = some found) :
    valuesOf "formatted" found =
      (members.filterMap WordMember.text?).map fun text => (textNote text).value := by
  induction members generalizing found with
  | nil =>
    cases read
    rfl
  | cons member members ih =>
    obtain ⟨first, others, one, rest, rfl⟩ := mapM_cons_eq_some read
    rw [valuesOf_cons, ih rest]
    cases member with
    | raw numbers =>
      obtain ⟨value, -, rfl⟩ := Option.map_eq_some_iff.1 one
      rfl
    | formatted text =>
      cases one
      rfl
    | other key unknown note =>
      cases one
      rw [if_neg unknown.2]
      rfl

theorem isAnnotation_texts (texts : List (Option String)) :
    isAnnotation (texts.map fun text => (textNote text).value) = decide (texts.length ≤ 1) := by
  cases texts with
  | nil => rfl
  | cons first others =>
    cases others with
    | nil => cases first <;> rfl
    | cons second others =>
      rw [decide_eq_false (by simp)]
      cases first <;> rfl

/-- The value of an entry gives the word that the entry says. -/
theorem ofEntry?_value? (entry : Entry) : entry.value?.bind ofEntry? = entry.word? := by
  cases entry with
  | bare numbers =>
    have plain : (numbersValue? numbers).bind ofEntry? =
        (numbersValue? numbers).bind Descriptor.word? := by
      rw [numbersValue?, Option.bind_map, Option.bind_map]
      rfl
    exact plain.trans (word?_numbersValue? numbers)
  | annotated members =>
    have raws : (members.mapM WordMember.value?).map (valuesOf "raw") =
        (Entry.annotated members).raws.mapM numbersValue? := valuesOf_raw members
    rw [Entry.value?, Option.bind_map, Entry.word?]
    cases found : members.mapM WordMember.value? with
    | none =>
      -- a number that cannot be read is no machine value either
      rw [found, Option.map_none] at raws
      split
      · next numbers only =>
        have unread : numbersValue? numbers = none := by
          cases h : numbersValue? numbers with
          | none => rfl
          | some value =>
            rw [only, mapM_cons_some h rfl] at raws
            cases raws
        have refused : wordOf? numbers = none := by
          rw [← word?_numbersValue?, unread]
          rfl
        rw [refused, ite_self]
        rfl
      · rfl
    | some values =>
      have annotation : isAnnotation (valuesOf "formatted" values) =
          decide ((Entry.annotated members).texts.length ≤ 1) := by
        rw [valuesOf_formatted found, isAnnotation_texts]
        rfl
      rw [found, Option.map_some] at raws
      rw [Option.bind_some, Function.comp_apply, ofEntry?]
      cases h : (Entry.annotated members).raws with
      | nil =>
        rw [h] at raws
        have nothing : valuesOf "raw" values = [] := Option.some.inj raws
        rw [nothing]
      | cons numbers lists =>
        rw [h] at raws
        obtain ⟨raw, others, read, rest, only⟩ := mapM_cons_eq_some raws.symm
        cases lists with
        | nil =>
          obtain rfl : [] = others := Option.some.inj rest
          have word : Descriptor.word? raw = wordOf? numbers := by
            rw [← word?_numbersValue?, read, Option.bind_some]
          simp only [only, annotation, word, decide_eq_true_eq]
        | cons second lists =>
          obtain ⟨raw', others, -, -, rfl⟩ := mapM_cons_eq_some rest
          rw [only]

/-- An entry is read as its word. -/
theorem Entry.Written.reads_word {entry : Entry} (written : entry.Written text)
    (short : text.length ≤ size) : Reads (Descriptor.entry size) text entry.word? := by
  intro rest ends
  rw [Descriptor.entry, toOption_bind, written.reads short rest ends, ← ofEntry?_value?]
  cases entry.value? with
  | none => rfl
  | some found =>
    simp only [Option.map_some, Option.bind_some]
    cases ofEntry? found <;> rfl

theorem reads_program {entries : List Entry} (list : WrittenList '[' ']' Entry.Written entries text)
    (short : text.length ≤ size) {blank : List Char} (white : Blank blank) :
    Reads (program size) (blank ++ text) (entries.mapM Entry.word?) := by
  intro rest ends
  obtain ⟨inside, rfl, read⟩ := collect_writtenItems (.inl rfl) (fun _ _ written => written.opens)
    (fun _ _ written short => written.reads_word short) list short rest
  have skipped : skipBlank (blank ++ ('[' :: (inside ++ rest))) = '[' :: (inside ++ rest) :=
    skipBlank_append white (Text.ends_cons rfl)
  rw [List.append_assoc, List.cons_append, program, skipped]
  exact read

/-! ## Members -/

theorem natAbs_lt_of_address? (value : Int) (start : Nat) (fits : address? value = some start) :
    value.natAbs < UInt64.size := by
  unfold address? at fits
  split at fits
  · omega
  · cases fits

theorem reads_start {value : Int} (written : WrittenNumber value text) {blank : List Char}
    (white : Blank blank) : Reads (integer address?) (blank ++ text) (address? value) := by
  intro rest ends
  rw [written, List.append_assoc]
  exact integer_ofInt natAbs_lt_of_address? value white ends

/-- Keeps the value of a member in its place, which has to be free. -/
def once {α β : Type} (meaning : β → Option α) : Option α → β → Option (Option α)
  | none, source => (meaning source).map some
  | some _, _ => none

/-- Keeps a member of a document among those that have been read. -/
def keep (fields : Fields) : Member → Option Fields
  | .start value => (once address? fields.start value).map fun start => { fields with start }
  | .program entries =>
    (once (fun entries => entries.mapM Entry.word?) fields.program entries).map fun program =>
      { fields with program }
  | .other _ _ _ => some fields

/-- A member of an unknown key is passed over. -/
theorem keyed_other (budget : Nat) (fields : Fields) {name : String}
    (unknown : name ≠ "start" ∧ name ≠ "program") :
    Keyed .kept (field budget fields) name
      (fun text => (skipValue budget text).map fun rest => ((), rest)) fun _ => fields where
  failed := by
    intro text failure refused
    rw [field, refused]
    rfl
  named := by
    intro text behind found
    simp only [field, found, unknown, if_false, bind, Except.bind]
    cases colon behind with
    | error failure => rfl
    | ok rest => cases h : skipValue budget rest <;> simp only [h] <;> rfl

/-- A reader that refuses a key refuses its members. -/
theorem reads_refused {α : Type} {name : String} {written : List Char → Prop}
    {item : List Char → Except Failure (α × List Char)} (member : WrittenMember name written text)
    (refused : ∀ text behind, key .kept text = .ok (name, behind) → item text = .error .mismatched) :
    Reads item text none := by
  intro rest ends
  obtain ⟨behind, after, inner, found, -⟩ := member.read rest
  rw [refused _ behind found]
  rfl

theorem Member.Written.opens {member : Member} (written : member.Written text) : Opens text := by
  cases written with
  | start member => exact member.opens
  | program member => exact member.opens
  | other member => exact member.opens

/-- A member is read into those that have been read before it, unless its place is taken. -/
theorem Member.Written.reads {source : Member} (written : source.Written text)
    (short : text.length ≤ size) (fields : Fields) :
    Reads (field size fields) text (keep fields source) := by
  cases written with
  | @start value _ member =>
    rw [keep]
    cases slot : fields.start with
    | none =>
      rw [once, Option.map_map]
      refine reads_keyed (keyed_start size slot) member _ ?_
      intro blank inner white written _
      exact reads_start written white
    | some start =>
      refine reads_refused member ?_
      intro text behind found
      simp only [field, found, slot, bind, Except.bind, Option.isSome_some, if_true]
  | @program entries _ member =>
    rw [keep]
    cases slot : fields.program with
    | none =>
      rw [once, Option.map_map]
      refine reads_keyed (keyed_program size slot) member _ ?_
      intro blank inner white written within
      exact reads_program written (Nat.le_trans within short) white
    | some words =>
      refine reads_refused member ?_
      intro text behind found
      simp only [field, found, slot, bind, Except.bind, Option.isSome_some, if_true]
      rfl
  | @other key unknown note _ member =>
    refine reads_keyed (keyed_other size fields unknown) member (some ()) ?_
    intro blank inner white written _ rest ends
    have passed := skipValue_note written size white rest
    rw [List.append_assoc]
    simp only [passed]
    rfl

/-! ## Documents -/

theorem foldlM_once {α β : Type} (meaning : β → Option α) (sources : List β) :
    sources.foldlM (once meaning) none = match sources with
      | [] => some none
      | [source] => (meaning source).map some
      | _ => none := by
  cases sources with
  | nil => rfl
  | cons first others =>
    rw [List.foldlM_cons]
    cases others with
    | nil => cases h : meaning first <;> simp [once, h]
    | cons second others => cases h : meaning first <;> simp [once, h]

theorem foldlM_keep (members : List Member) (fields : Fields) :
    members.foldlM keep fields =
      ((starts members).foldlM (once address?) fields.start).bind fun start =>
        ((programs members).foldlM (once fun entries => entries.mapM Entry.word?)
          fields.program).map fun program => { start, program } := by
  induction members generalizing fields with
  | nil => rfl
  | cons member members ih =>
    rw [List.foldlM_cons]
    cases member with
    | start value =>
      have first : starts (.start value :: members) = value :: starts members := rfl
      have same : programs (.start value :: members) = programs members := rfl
      rw [first, same, List.foldlM_cons, keep]
      cases once address? fields.start value with
      | none => rfl
      | some start => exact ih { fields with start }
    | program entries =>
      have first : programs (.program entries :: members) = entries :: programs members := rfl
      have same : starts (.program entries :: members) = starts members := rfl
      rw [first, same, List.foldlM_cons, keep]
      cases once (fun entries => entries.mapM Entry.word?) fields.program entries with
      | none => cases (starts members).foldlM (once address?) fields.start <;> rfl
      | some program => exact ih { fields with program }
    | other key unknown note => exact ih fields

/-- The executable of the members that have been read. -/
def finish : Fields → Option Executable
  | ⟨some start, some program⟩ => some { start, program }
  | _ => none

theorem finish_keep (members : List Member) :
    (members.foldlM keep {}).bind finish = executable? members := by
  rw [foldlM_keep, foldlM_once, foldlM_once, executable?]
  cases starts members with
  | nil =>
    cases programs members with
    | nil => rfl
    | cons entries others =>
      cases others with
      | nil => cases h : entries.mapM Entry.word? <;> simp [h, finish]
      | cons => rfl
  | cons start others =>
    cases others with
    | cons => rfl
    | nil =>
      cases programs members with
      | nil => cases h : address? start <;> simp [h, finish]
      | cons entries others =>
        cases others with
        | cons => cases h : address? start <;> simp [h]
        | nil =>
          cases h : address? start with
          | none => simp [h]
          | some start => cases words : entries.mapM Entry.word? <;> simp [h, words, finish]

/-- The text of a document is read as the executable that the document gives. -/
theorem toOption_read {members : List Member} {text : List Char} (written : Written members text) :
    (read text).toOption = executable? members := by
  obtain @⟨before, text, after, white, list, white'⟩ := written
  let size := (before ++ (text ++ after)).length
  have short : text.length ≤ size := by
    simp only [size, List.length_append]
    omega
  obtain ⟨inside, rfl, collected⟩ := collect_written (.inr rfl)
    (fun _ _ written => written.opens) (fun _ _ written short found => written.reads short found)
    list short {} after
  have object : (ofObject size (inside ++ after)).toOption =
      (executable? members).map fun executable => (executable, after) := by
    rw [ofObject, toOption_bind, collected, ← finish_keep]
    cases members.foldlM keep {} with
    | none => rfl
    | some fields =>
      obtain ⟨start, program⟩ := fields
      cases start with
      | none => rfl
      | some start => cases program <;> rfl
  have skipped : skipBlank (before ++ ('\x7b' :: inside ++ after)) = '\x7b' :: (inside ++ after) :=
    skipBlank_append white (Text.ends_cons rfl)
  rw [Descriptor.read, skipped]
  cases found : executable? members with
  | none =>
    rw [found] at object
    obtain ⟨failure, failed⟩ := eq_error_of_toOption object
    simp only [size] at failed
    simp only [failed, bind, Except.bind]
    rfl
  | some executable =>
    rw [found] at object
    have ok := eq_ok_of_toOption object
    simp only [size] at ok
    simp only [ok, bind, Except.bind, endOfText, skipBlank_blank white', if_true]
    rfl

/-- Descriptors that are written by hand, in any order, with any white space, any spelling of their
strings, and anything beside what they say: a text that describes an executable gives it with its
commands without arguments replaced by data, and the texts beside the numbers do not matter. A text
with a number that is out of range, a list without numbers, or a part that is missing or repeated is
refused, and never gives a program. The start of the executable is an address of 64 bits. -/
theorem descriptor_variants_read :
    (∀ (executable : Executable) (members : List Member) (text : String),
      executable.start < UInt64.size → Describes members executable →
      Written members text.toList →
      ∃ kept, Executable.ofJson text = .ok kept ∧ executable.ComesBackAs kept) ∧
    ∀ (members : List Member) (text : String), Defective members → Written members text.toList →
      ∃ failure, Executable.ofJson text = .error failure := by
  constructor
  · intro executable members text addressable describes written
    have found := toOption_read written
    rw [describes.executable? addressable] at found
    exact ⟨executable.persisted, eq_ok_of_toOption found, executable.comesBackAs_persisted⟩
  · intro members text defective written
    have found := toOption_read written
    rw [defective.executable?] at found
    exact eq_error_of_toOption found

/-- A text with its members in another order, a space in front, and a pair of surrogates in the text
beside a number; and a text whose only fault is a number above the machine values. -/
theorem descriptor_variants_read_pair :
    (∃ kept, Executable.ofJson
        " \x7b\"program\":[\x7b\"raw\":[22],\"formatted\":\"\\ud83d\\ude00\"\x7d],\"start\":7\x7d" =
          .ok kept ∧
      Executable.ComesBackAs ⟨7, [.command 22 []]⟩ kept) ∧
    ∃ failure, Executable.ofJson "\x7b\"start\":0,\"program\":[[2147483648]]\x7d" =
      .error failure := by
  have number (value : Int) : WrittenNumbers [value] _ := .items (.cons (.unspaced rfl) .nil)
  have start (value : Int) : Member.Written (.start value) _ := .start (.unspaced rfl)
  have formatted : WrittenString "😀"
      ['"', '\\', 'u', 'd', '8', '3', 'd', '\\', 'u', 'd', 'e', '0', '0', '"'] := by
    have high : SpelledUnit (0xd800 + ('😀'.toNat - 0x10000) / 0x400) ['d', '8', '3', 'd'] :=
      @SpelledUnit.digits 'd' '8' '3' 'd' 13 8 3 13 rfl rfl rfl rfl
    have low : SpelledUnit (0xdc00 + ('😀'.toNat - 0x10000) % 0x400) ['d', 'e', '0', '0'] :=
      @SpelledUnit.digits 'd' 'e' '0' '0' 13 14 0 0 rfl rfl rfl rfl
    have chars : WrittenChars "😀".toList
        ['\\', 'u', 'd', '8', '3', 'd', '\\', 'u', 'd', 'e', '0', '0'] :=
      .cons (.pair (by decide) high low) .nil
    exact .quoted chars
  have entry : Entry.Written (.annotated [.raw [22], .formatted (some "😀")]) _ :=
    .annotated (.items (.cons (.unspaced (.raw (.unspaced (number 22))))
      (.cons (.unspaced (.formatted (.unspaced (.string formatted)))) .nil)))
  have program : Member.Written (.program [.annotated [.raw [22], .formatted (some "😀")]]) _ :=
    .program (.unspaced (.items (.cons (.unspaced entry) .nil)))
  have large : Member.Written (.program [.bare [2147483648]]) _ :=
    .program (.unspaced (.items (.cons (.unspaced (.bare (number 2147483648))) .nil)))
  constructor
  · have written : Written [.program [.annotated [.raw [22], .formatted (some "😀")]], .start 7] _ :=
      .object blank_space (.items (.cons (.unspaced program) (.cons (.unspaced (start 7)) .nil)))
        blank_nil
    have halt : (Entry.annotated [.raw [22], .formatted (some "😀")]).Describes (.command 22 []) :=
      ⟨rfl, Nat.le_refl 1⟩
    exact descriptor_variants_read.1 _ _ _ (by decide) ⟨rfl, _, rfl, .cons halt .nil⟩ written
  · have written : Written [.start 0, .program [.bare [2147483648]]] _ :=
      .object blank_nil (.items (.cons (.unspaced (start 0)) (.cons (.unspaced large) .nil)))
        blank_nil
    have only : [Entry.bare [2147483648]] ∈
        programs [.start 0, .program [.bare [2147483648]]] := List.mem_cons_self
    have list : [2147483648] ∈ (Entry.bare [2147483648]).raws := List.mem_cons_self
    exact descriptor_variants_read.2 _ _
      (.entry only List.mem_cons_self (.outside list List.mem_cons_self (.inr (by decide)))) written

end TickMachine.Document
