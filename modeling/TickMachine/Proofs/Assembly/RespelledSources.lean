import Mathlib.Logic.Equiv.Basic
import TickMachine.Proofs.Assembly.Respelling
import TickMachine.Proofs.Assembly.Verdicts

/-! # Respelled sources

What labels are called does not matter to the assembler, as long as different labels have different
names, nor does the case of mnemonics and registers, nor where tokens stand. Sources that differ in
nothing else are assembled to the same executable, or refused for the same reason. -/

namespace TickMachine

/-! ## Renamed drafts -/

/-- A renaming under which different names stay different, and the name of the start stays as it
is. -/
structure KeepsApart (renames : String → String → Prop) : Prop where
  eq_iff : ∀ {name name' other other' : String}, renames name name' → renames other other' →
    (name = other ↔ name' = other')
  start : renames startLabel startLabel

section

variable (renames : String → String → Prop)

/-- Words that differ at most in the names of labels. -/
inductive DraftWord.Renamed : DraftWord → DraftWord → Prop
  | data {content other : Operand} (renamed : content.Renamed renames other) :
    Renamed (.data content) (.data other)
  | command {op : Op} {operands others : List Operand}
    (renamed : List.Forall₂ (Operand.Renamed renames) operands others) :
    Renamed (.command op operands) (.command op others)

/-- Tables of the same addresses under other names. -/
def LabelTable.Renamed (table other : LabelTable) : Prop :=
  List.Forall₂ (fun entry entry' => renames entry.1 entry'.1 ∧ entry.2 = entry'.2) table.entries
    other.entries

/-- Drafts that differ at most in the names of labels. -/
structure Draft.Renamed (draft other : Draft) : Prop where
  words : List.Forall₂ (DraftWord.Renamed renames) draft.words.toList other.words.toList
  labels : draft.labels.Renamed renames other.labels

end

section

variable {renames : String → String → Prop}

/-! ## Words of items -/

theorem words_of_datum {datum other : Datum} (renamed : datum.Renamed renames other) :
    List.Forall₂ (DraftWord.Renamed renames) datum.words other.words := by
  cases renamed with
  | number => exact .cons (.data .literal) .nil
  | label renamed => exact .cons (.data (.label renamed)) .nil
  | string =>
    refine List.forall₂_same.2 fun word member => ?_
    rcases List.mem_append.1 member with character | zero
    · obtain ⟨c, -, rfl⟩ := List.mem_map.1 character
      exact .data .literal
    · rw [List.mem_singleton.1 zero]
      exact .data .literal

theorem words_of_item {item other : Item} (renamed : item.Renamed renames other) :
    List.Forall₂ (DraftWord.Renamed renames) item.words other.words := by
  cases renamed with
  | label => exact .nil
  | instruction operands => exact .cons (.command operands) .nil
  | data arguments => exact List.rel_flatMap arguments fun _ _ => words_of_datum

/-! ## Tables -/

variable (apart : KeepsApart renames)
include apart

theorem find?_renamed {table other : LabelTable} (same : table.Renamed renames other)
    {name name' : String} (renamed : renames name name') : table.find? name = other.find? name' := by
  unfold LabelTable.Renamed at same
  unfold LabelTable.find?
  generalize table.entries = entries, other.entries = entries' at same
  induction same with
  | nil => rfl
  | @cons entry entry' _ _ first _ ih =>
    have test : (name == entry.1) = (name' == entry'.1) := by
      rw [Bool.eq_iff_iff, beq_iff_eq, beq_iff_eq]
      exact apart.eq_iff renamed first.1
    rw [List.lookup_cons, List.lookup_cons, test, first.2, ih]

theorem insert_alike {table other : LabelTable} (same : table.Renamed renames other)
    {name name' : String} (renamed : renames name name') (address : Nat) :
    Alike renames (LabelTable.Renamed renames) (table.insert name address)
      (other.insert name' address) := by
  unfold LabelTable.insert
  rw [find?_renamed apart same renamed]
  split
  · exact .error (.labelRedefinition renamed)
  · exact .ok (List.rel_append same (.cons ⟨renamed, rfl⟩ .nil))

/-! ## The first pass -/

theorem add_alike {draft other : Draft} (same : draft.Renamed renames other) {item item' : Item}
    (renamed : item.Renamed renames item') :
    Alike renames (Draft.Renamed renames) (draft.add item) (other.add item') := by
  have words : List.Forall₂ (DraftWord.Renamed renames) (draft.words.toList ++ item.words)
      (other.words.toList ++ item'.words) := List.rel_append same.words (words_of_item renamed)
  cases renamed with
  | label renamed =>
    have size : draft.words.size = other.words.size := by
      rw [← Array.length_toList, ← Array.length_toList, same.words.length_eq]
    unfold Draft.add
    rw [size]
    rcases (insert_alike apart same.labels renamed other.words.size).cases with
      ⟨_, _, inserted, inserted', labels⟩ | ⟨_, _, refused, refused', respelled⟩
    · simp only [inserted, inserted']
      exact .ok ⟨same.words, labels⟩
    · simp only [refused, refused']
      exact .error respelled
  | instruction | data =>
    rw [← Array.toList_appendList, ← Array.toList_appendList] at words
    exact .ok ⟨words, same.labels⟩

/-- The first pass makes of respelled tokens what it makes of the tokens. -/
theorem extend_alike {draft other : Draft} (same : draft.Renamed renames other)
    {tokens others : List Token} (each : List.Forall₂ (Token.Respelled renames) tokens others) :
    Alike renames (Draft.Renamed renames) (draft.extend tokens).2 (other.extend others).2 := by
  -- an item takes up several tokens, so the induction is on how many are left
  generalize size : tokens.length = n
  induction n using Nat.strongRecOn generalizing draft other tokens others with
  | ind n ih =>
    cases each with
    | nil =>
      rw [Draft.extend_nil, Draft.extend_nil]
      exact .ok same
    | cons first rest =>
      rcases (Item.read_alike first rest).cases with
        ⟨⟨item, behind⟩, ⟨item', behind'⟩, read, read', renamed, each'⟩ |
        ⟨_, _, unread, unread', respelled⟩
      · rcases (add_alike apart same renamed).cases with
          ⟨_, _, added, added', same'⟩ | ⟨_, _, refused, refused', respelled⟩
        · rw [Draft.extend_cons read added, Draft.extend_cons read' added']
          refine ih behind.length ?_ same' each' rfl
          rw [← size]
          exact Nat.lt_succ_of_le (Item.read_length_le read)
        · rw [Draft.extend_of_refused read refused, Draft.extend_of_refused read' refused']
          exact .error respelled
      · rw [Draft.extend_of_unread unread, Draft.extend_of_unread unread']
        exact .error respelled

/-! ## The second pass -/

theorem resolveOperand_alike {labels labels' : LabelTable} (same : labels.Renamed renames labels')
    {operand other : Operand} (renamed : operand.Renamed renames other) :
    Alike renames Eq (operand.resolve labels) (other.resolve labels') := by
  cases renamed with
  | literal => exact .ok rfl
  | @label name name' renamed =>
    simp only [Operand.resolve, LabelTable.address, find?_renamed apart same renamed]
    cases labels'.find? name' with
    | none => exact .error (.undefinedLabel renamed)
    | some address =>
      simp only
      cases Decimal.toInt32? address with
      | none => exact .error .programTooLarge
      | some value => exact .ok rfl

theorem resolveWord_alike {labels labels' : LabelTable} (same : labels.Renamed renames labels')
    {word other : DraftWord} (renamed : word.Renamed renames other) :
    Alike renames Eq (word.resolve labels) (other.resolve labels') := by
  cases renamed with
  | data renamed =>
    exact (resolveOperand_alike apart same renamed).map fun _ _ => congrArg Word.data
  | @command op operands others renamed =>
    have values : Alike renames (List.Forall₂ Eq) (operands.mapM (Operand.resolve labels))
        (others.mapM (Operand.resolve labels')) :=
      alike_mapM renamed fun _ _ _ => resolveOperand_alike apart same
    rw [List.forall₂_eq_eq_eq] at values
    exact values.map fun _ _ => congrArg (Word.ofOp op)

/-- The second pass makes the same executable of drafts that differ in the names of labels. -/
theorem link_alike {draft other : Draft} (same : draft.Renamed renames other) :
    Alike renames Eq draft.link other.link := by
  have program : Alike renames (List.Forall₂ Eq)
      (draft.words.toList.mapM (DraftWord.resolve draft.labels))
      (other.words.toList.mapM (DraftWord.resolve other.labels)) :=
    alike_mapM same.words fun _ _ _ => resolveWord_alike apart same.labels
  rw [List.forall₂_eq_eq_eq] at program
  unfold Draft.link
  rw [find?_renamed apart same.labels apart.start]
  cases other.labels.find? startLabel with
  | none => exact .error .missingStartLabel
  | some start =>
    rcases program.cases with ⟨_, _, linked, linked', rfl⟩ | ⟨_, _, refused, refused', respelled⟩
    · simp only [linked, linked']
      exact .ok rfl
    · simp only [refused, refused']
      exact .error respelled

/-- Respelled tokens are assembled as the tokens are. -/
theorem assembly_alike {source source' : String} {tokens others : List Token}
    (lexed : lex source = .ok tokens) (lexed' : lex source' = .ok others)
    (each : List.Forall₂ (Token.Respelled renames) tokens others) :
    Alike renames (fun found other => found.1 = other.1 ∧ found.2.Renamed renames other.2)
      (assembleWithLabels source) (assembleWithLabels source') := by
  have empty : Draft.empty.Renamed renames Draft.empty := ⟨.nil, .nil⟩
  have drafts := extend_alike apart empty each
  rcases extended : Draft.empty.extend tokens with ⟨labels, attempt⟩
  rcases extended' : Draft.empty.extend others with ⟨labels', attempt'⟩
  rw [extended, extended'] at drafts
  simp only [assembleWithLabels, Assembly.ofSource, lexed, lexed', Assembly.ofTokens, extended,
    extended']
  rcases drafts.cases with
    ⟨draft, draft', rfl, rfl, same⟩ | ⟨error, error', rfl, rfl, respelled⟩
  · -- where the first pass succeeds, the table is the one of the draft
    obtain rfl := (Draft.extend_ok extended).1
    obtain rfl := (Draft.extend_ok extended').1
    exact (link_alike apart same).map fun _ _ linked => ⟨linked, same.labels⟩
  · exact .error respelled

end

/-! ## Renaming -/

/-- A table with its labels renamed. -/
def LabelTable.renamed (rename : String → String) (table : LabelTable) : LabelTable :=
  ⟨table.entries.map fun (name, address) => (rename name, address)⟩

theorem eq_renamed {rename : String → String} {table other : LabelTable}
    (same : table.Renamed (fun name name' => name' = rename name) other) :
    other = table.renamed rename := by
  unfold LabelTable.Renamed at same
  obtain ⟨entries⟩ := table
  obtain ⟨entries'⟩ := other
  refine congrArg LabelTable.mk ?_
  simp only at same ⊢
  induction same with
  | nil => rfl
  | cons first _ ih =>
    rw [List.map_cons, ← ih, ← first.1, first.2]

/-- Sources whose tokens are those of each other up to the names of labels, under a renaming that
keeps different names different and the start, up to the case of mnemonics and registers, and up to
where they stand: both are assembled, to the same executable and with the same labels under their
names, or both are refused, with an error of one kind about what corresponds. -/
theorem spelling_does_not_matter {source other : String} {tokens others : List Token}
    {rename : String → String} (lexed : lex source = .ok tokens) (lexed' : lex other = .ok others)
    (injective : Function.Injective rename) (start : rename startLabel = startLabel)
    (respelled :
      List.Forall₂ (Token.Respelled fun name name' => name' = rename name) tokens others) :
    (∃ executable labels, assembleWithLabels source = .ok (executable, labels) ∧
      assembleWithLabels other = .ok (executable, labels.renamed rename)) ∨
    ∃ error error', assembleWithLabels source = .error error ∧
      assembleWithLabels other = .error error' ∧
      error.Respelled (fun name name' => name' = rename name) error' := by
  have apart : KeepsApart fun name name' => name' = rename name :=
    ⟨fun renamed renamed' => by rw [renamed, renamed', injective.eq_iff], start.symm⟩
  rcases (assembly_alike apart lexed lexed' respelled).cases with
    ⟨⟨executable, labels⟩, ⟨executable', labels'⟩, assembled, assembled', same, renamed⟩ |
    ⟨error, error', refused, refused', same⟩
  · obtain rfl : executable = executable' := same
    obtain rfl := eq_renamed renamed
    exact .inl ⟨executable, labels, assembled, assembled'⟩
  · exact .inr ⟨error, error', refused, refused', same⟩

/-- A label may get the name of an instruction, and instructions and registers small letters. -/
theorem spelling_does_not_matter_swapped :
    assembleWithLabels "_start:\n ldi %r0 add; x\nadd:word _start" = .ok
      (⟨0, [.command 11 [0, 1], .data 0]⟩, ⟨[("_start", 0), ("add", 1)]⟩) := by
  let tokens : List Token :=
    [⟨.label, "_start", 0⟩, ⟨.instruction, "LDI", 8⟩, ⟨.register, "R0", 12⟩,
      ⟨.reference, "loop", 17⟩, ⟨.label, "loop", 22⟩, ⟨.instruction, "WORD", 28⟩,
      ⟨.reference, "_start", 33⟩]
  let others : List Token :=
    [⟨.label, "_start", 0⟩, ⟨.instruction, "ldi", 9⟩, ⟨.register, "r0", 13⟩,
      ⟨.reference, "add", 17⟩, ⟨.label, "add", 24⟩, ⟨.instruction, "word", 28⟩,
      ⟨.reference, "_start", 33⟩]
  have lexed : lex "_start: LDI %R0, loop\nloop: WORD _start" = .ok tokens :=
    Lexer.lex_of_finishWithin 60 (by decide +kernel)
  have lexed' : lex "_start:\n ldi %r0 add; x\nadd:word _start" = .ok others :=
    Lexer.lex_of_finishWithin 60 (by decide +kernel)
  let draft : Draft :=
    { words := #[.command .ldi [.literal 0, .label "loop"], .data (.label "_start")]
      labels := ⟨[("_start", 0), ("loop", 1)]⟩ }
  have assembled : assembleWithLabels "_start: LDI %R0, loop\nloop: WORD _start" =
      .ok (⟨0, [.command 11 [0, 1], .data 0]⟩, draft.labels) := by
    refine assembleWithLabels_of_draft draft lexed ?_ rfl
    rw [Draft.extend_cons rfl rfl, Draft.extend_cons rfl rfl, Draft.extend_cons rfl rfl,
      Draft.extend_cons rfl rfl]
    exact Draft.extend_nil draft
  have respelled : List.Forall₂
      (Token.Respelled fun name name' => name' = Equiv.swap "loop" "add" name) tokens others :=
    .cons ⟨rfl, by decide⟩ (.cons ⟨rfl, by decide⟩ (.cons ⟨rfl, by decide⟩ (.cons ⟨rfl, by decide⟩
      (.cons ⟨rfl, by decide⟩ (.cons ⟨rfl, by decide⟩ (.cons ⟨rfl, by decide⟩ .nil))))))
  rcases spelling_does_not_matter lexed lexed' (Equiv.swap "loop" "add").injective (by decide)
    respelled with ⟨executable, labels, same, assembled'⟩ | ⟨error, error', refused, -⟩
  · rw [assembled] at same
    obtain ⟨rfl, rfl⟩ := Prod.mk.inj (Except.ok.inj same)
    exact assembled'
  · rw [assembled] at refused
    cases refused

end TickMachine
