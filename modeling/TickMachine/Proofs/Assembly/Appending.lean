import TickMachine.Proofs.Assembly.Joining
import TickMachine.Proofs.Assembly.Verdicts

/-! # Programs one behind the other

A program that is written behind another one is laid out behind it. The program in front keeps its
words, its labels and its start, and the program behind moves as a whole: its own labels by the
length of the program in front, and nothing else. -/

namespace TickMachine

/-! ## The second pass over joined drafts -/

/-- The number that an operand of a program stands for behind another one of a length: a label of
the program has moved, and another one is a label of the program in front. -/
def Operand.relocated (front back : LabelTable) (distance : Nat) : Operand → Int32
  | .literal value => value
  | .label name =>
    match back.find? name with
    | some address => Int32.ofNat (address + distance)
    | none => Int32.ofNat ((front.find? name).getD 0)

/-- The word of a program behind another one. -/
def DraftWord.relocated (front back : LabelTable) (distance : Nat) : DraftWord → Word
  | .data content => .data (content.relocated front back distance)
  | .command op operands => .ofOp op (operands.map (Operand.relocated front back distance))

/-- A label has an address that is a machine value, in the program in front or, moved by a
distance, in the one behind it. -/
def PlacedBehind (front back : LabelTable) (distance : Nat) (name : String) : Prop :=
  ∃ address ≤ 2147483647, front.find? name = some address ∨
    (back.find? name).map (· + distance) = some address

section

variable {front back : LabelTable} {distance : Nat}

/-- What an operand stands for does not change when more labels are known. -/
theorem resolve_operand_join {operand : Operand} {value : Int32}
    (resolved : operand.resolve front = .ok value) :
    operand.resolve (front.join back) = .ok value := by
  cases operand with
  | literal value => exact resolved
  | label name =>
    rw [Operand.resolve, LabelTable.address] at resolved ⊢
    rw [LabelTable.find?_join]
    cases found : front.find? name with
    | none => rw [found] at resolved; cases resolved
    | some address =>
      rw [found] at resolved
      exact resolved

theorem resolve_word_join {word : DraftWord} {result : Word}
    (resolved : word.resolve front = .ok result) :
    word.resolve (front.join back) = .ok result := by
  cases word with
  | data content =>
    rw [DraftWord.resolve] at resolved ⊢
    obtain ⟨value, found, rfl⟩ := map_ok resolved
    rw [resolve_operand_join found]
    rfl
  | command op operands =>
    rw [DraftWord.resolve] at resolved ⊢
    obtain ⟨values, found, rfl⟩ := map_ok resolved
    rw [mapM_ok_of_imp (fun _ _ => resolve_operand_join) found]
    rfl

variable (apart : ∀ name, front.find? name = none ∨ back.find? name = none)
include apart

theorem resolve_operand_relocated {operand : Operand}
    (placed : ∀ name ∈ operand.reference?, PlacedBehind front back distance name) :
    operand.resolve (front.join (back.moved distance)) =
      .ok (operand.relocated front back distance) := by
  cases operand with
  | literal value => rfl
  | label name =>
    obtain ⟨address, small, found⟩ := placed name rfl
    have number : Int32.ofInt address = Int32.ofNat address := rfl
    rw [Operand.resolve, LabelTable.address, LabelTable.find?_join, LabelTable.find?_moved,
      Operand.relocated]
    rcases found with found | found
    · have other := (apart name).resolve_left (by simp [found])
      simp only [found, other, Option.some_or, toInt32?_of_le small, Option.getD_some, number]
    · have other := (apart name).resolve_right fun missing => by simp [missing] at found
      obtain ⟨own, known, rfl⟩ := Option.map_eq_some_iff.1 found
      simp only [other, known, Option.map_some, Option.none_or, toInt32?_of_le small, number]

theorem resolve_word_relocated {word : DraftWord}
    (placed : ∀ name ∈ word.references, PlacedBehind front back distance name) :
    word.resolve (front.join (back.moved distance)) =
      .ok (word.relocated front back distance) := by
  cases word with
  | data content =>
    have resolved := resolve_operand_relocated apart fun name member =>
      placed name (Option.mem_toList.2 member)
    rw [DraftWord.resolve, resolved]
    rfl
  | command op operands =>
    have resolved : operands.mapM (Operand.resolve (front.join (back.moved distance))) =
        .ok (operands.map (Operand.relocated front back distance)) := by
      refine mapM_eq_map fun operand inside => resolve_operand_relocated apart ?_
      exact fun name member => placed name (List.mem_filterMap.2 ⟨operand, inside, member⟩)
    rw [DraftWord.resolve, resolved]
    rfl

end

theorem words_join (front back : Draft) :
    (front.join back).words.toList = front.words.toList ++ back.words.toList := by
  rw [Draft.join, Array.toList_append]

/-- The second pass relocates the words behind a draft. -/
theorem resolve_behind {front back : Draft}
    (apart : ∀ name, front.labels.find? name = none ∨ back.labels.find? name = none)
    (placed : ∀ name ∈ back.words.toList.flatMap DraftWord.references,
      PlacedBehind front.labels back.labels front.words.size name) :
    back.words.toList.mapM (DraftWord.resolve (front.join back).labels) =
      .ok (back.words.toList.map
        (DraftWord.relocated front.labels back.labels front.words.size)) := by
  refine mapM_eq_map fun word inside => resolve_word_relocated apart ?_
  intro name member
  exact placed name (List.mem_flatMap.2 ⟨word, inside, member⟩)

/-- The second pass over a draft with another one behind it. -/
theorem link_join {front back : Draft} {first : Executable} (linked : front.link = .ok first)
    (apart : ∀ name, front.labels.find? name = none ∨ back.labels.find? name = none)
    (placed : ∀ name ∈ back.words.toList.flatMap DraftWord.references,
      PlacedBehind front.labels back.labels first.program.length name) :
    (front.join back).link = .ok ⟨first.start, first.program ++ back.words.toList.map
      (DraftWord.relocated front.labels back.labels first.program.length)⟩ := by
  obtain ⟨start, program⟩ := link_ok linked
  have size : front.words.size = first.program.length := (length_of_mapM program).symm
  have started : (front.join back).labels.find? startLabel = some first.start := by
    rw [Draft.join, LabelTable.find?_join, start]
    rfl
  have ahead := mapM_ok_of_imp (g := DraftWord.resolve (front.join back).labels)
    (fun _ _ => resolve_word_join) program
  rw [← size] at placed ⊢
  have behind := resolve_behind apart placed
  simp only [Draft.link, started, words_join, List.mapM_append, ahead, behind]
  rfl

/-! ## Sources one behind the other -/

/-- Appending code never disturbs what is already assembled. Behind a source that is assembled,
another one whose first pass succeeds is assembled as well if they have no label in common and each
label that the second one refers to has an address within reach. The start, the words and the labels
of the first source stay as they are. Behind them stand the words and the labels of the second one,
where its own labels have moved by the length of the first program. -/
theorem appending_disturbs_nothing {front back : String} {first : Executable} {labels : LabelTable}
    {tokens : List Token} {draft : Draft}
    (assembled : assembleWithLabels front = .ok (first, labels))
    (lexed : lex back = .ok tokens) (drafted : (Draft.empty.extend tokens).2 = .ok draft)
    (apart : ∀ name, labels.find? name = none ∨ draft.labels.find? name = none)
    (placed : ∀ name ∈ references tokens,
      PlacedBehind labels draft.labels first.program.length name) :
    assembleWithLabels (front ++ "\n" ++ back) = .ok
      (⟨first.start, first.program ++ draft.words.toList.map
          (DraftWord.relocated labels draft.labels first.program.length)⟩,
        labels.join (draft.labels.moved first.program.length)) := by
  obtain ⟨tokens', items, draft', lexed', read', adds', linked, rfl⟩ := assembled_steps assembled
  have extended : Draft.empty.extend tokens = (_, .ok draft) := Prod.ext rfl drafted
  obtain ⟨-, others, read, adds⟩ := Draft.extend_ok extended
  have both := Lexer.lex_append lexed' lexed
  have joined := extend_append (front.length + 1) read' adds' read adds
    (Draft.ends_of_extend extended) apart
  have words : draft.words.toList = wordsOf others := by
    rw [Draft.words_of_adds adds]
    rfl
  have placed' : ∀ name ∈ draft.words.toList.flatMap DraftWord.references,
      PlacedBehind draft'.labels draft.labels first.program.length name := by
    rw [words, references_wordsOf read, ← references_eq]
    exact placed
  have size : draft'.words.size = first.program.length :=
    (length_of_mapM (link_ok linked).2).symm
  have assembledBoth := assembleWithLabels_of_draft _ both joined (link_join linked apart placed')
  rw [assembledBoth, Draft.join, size]

/-- Behind two instructions, a label stands two words further behind, and the label of an instruction
keeps its address. -/
theorem appending_disturbs_nothing_words :
    assembleWithLabels ("_start: LDI %R0, 1\nx: HLT" ++ "\n" ++ "y: WORD x, y") = .ok
      (⟨0, [.command 11 [0, 1], .command 22 [], .data 1, .data 2]⟩,
        ⟨[("_start", 0), ("x", 1), ("y", 2)]⟩) := by
  have lexedFront : lex "_start: LDI %R0, 1\nx: HLT" = .ok
      [⟨.label, "_start", 0⟩, ⟨.instruction, "LDI", 8⟩, ⟨.register, "R0", 12⟩, ⟨.number, "1", 17⟩,
        ⟨.label, "x", 19⟩, ⟨.instruction, "HLT", 22⟩] :=
    Lexer.lex_of_finishWithin 40 (by decide +kernel)
  have lexed : lex "y: WORD x, y" = .ok
      [⟨.label, "y", 0⟩, ⟨.instruction, "WORD", 3⟩, ⟨.reference, "x", 8⟩, ⟨.reference, "y", 11⟩] :=
    Lexer.lex_of_finishWithin 40 (by decide +kernel)
  let first : Draft :=
    { words := #[.command .ldi [.literal 0, .literal 1], .command .hlt []]
      labels := ⟨[("_start", 0), ("x", 1)]⟩ }
  let second : Draft :=
    { words := #[.data (.label "x"), .data (.label "y")]
      labels := ⟨[("y", 0)]⟩ }
  have assembled : assembleWithLabels "_start: LDI %R0, 1\nx: HLT" =
      .ok (⟨0, [.command 11 [0, 1], .command 22 []]⟩, first.labels) := by
    refine assembleWithLabels_of_draft first lexedFront ?_ rfl
    rw [Draft.extend_cons rfl rfl, Draft.extend_cons rfl rfl, Draft.extend_cons rfl rfl,
      Draft.extend_cons rfl rfl]
    exact Draft.extend_nil first
  have drafted : Draft.empty.extend [⟨.label, "y", 0⟩, ⟨.instruction, "WORD", 3⟩,
      ⟨.reference, "x", 8⟩, ⟨.reference, "y", 11⟩] = (second.labels, .ok second) := by
    rw [Draft.extend_cons rfl rfl, Draft.extend_cons rfl rfl]
    exact Draft.extend_nil second
  have apart : ∀ name, first.labels.find? name = none ∨ second.labels.find? name = none := by
    intro name
    by_cases own : name = "y"
    · exact .inl (by rw [own]; rfl)
    · exact .inr (by simp [second, LabelTable.find?, List.lookup_cons, beq_false_of_ne own])
  have placed : ∀ name ∈ references [⟨.label, "y", 0⟩, ⟨.instruction, "WORD", 3⟩,
      ⟨.reference, "x", 8⟩, ⟨.reference, "y", 11⟩],
      PlacedBehind first.labels second.labels 2 name := by
    intro name member
    have names : name = "x" ∨ name = "y" := by simpa [references, Token.referred?] using member
    rcases names with rfl | rfl
    · exact ⟨1, by decide, .inl rfl⟩
    · exact ⟨2, by decide, .inr rfl⟩
  exact appending_disturbs_nothing assembled lexed (congrArg Prod.snd drafted) apart placed

end TickMachine
