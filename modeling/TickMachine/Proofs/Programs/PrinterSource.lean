import TickMachine.Proofs.Assembly.Appending
import TickMachine.Proofs.Source.Printing

/-! # The source of the printer

The printer is a program that sends a text, character by character. Its source starts with a line
that holds the text, and the loop behind it is the same for all texts. So the loop is assembled
once, by itself, and put behind the words of the text, where its labels have moved by the number of
these words. -/

namespace TickMachine.Printer

open Lexer

/-- The line that holds the text. -/
def textLine (text : String) : String :=
  "\nmsg: WORD \"" ++ String.ofList (Literal.escaped text.toList) ++ "\"   ; zero-terminated"

/-- The lines of the loop. -/
def loopLines : String :=
  "\n_start:\n    LDI %R1, msg\nloop:\n    LD %R0, %R1\n    BEQ %R0, %R7, done\n    OUT %R0\n" ++
    "    ADDI %R1, %R1, 1\n    BEQ %R7, %R7, loop\ndone:\n    HLT\n"

/-- The source of the printer of a text. -/
def source (text : String) : String := textLine text ++ "\n" ++ loopLines

example : source "hello" = "
msg: WORD \"hello\"   ; zero-terminated

_start:
    LDI %R1, msg
loop:
    LD %R0, %R1
    BEQ %R0, %R7, done
    OUT %R0
    ADDI %R1, %R1, 1
    BEQ %R7, %R7, loop
done:
    HLT
" := by decide +kernel

/-- The numbers that stand for a text: its scalars, and a zero behind them. -/
def numbers (text : String) : List Int32 := text.toList.map (fun c => Int32.ofNat c.toNat) ++ [0]

/-- The words of the loop behind those of a text of a length. -/
def code (length : Nat) : List Word :=
  [.ofOp .ldi [1, 0],
    .ofOp .ld [0, 1],
    .ofOp .beq [0, 7, Int32.ofNat (length + 7)],
    .ofOp .output [0],
    .ofOp .addi [1, 1, 1],
    .ofOp .beq [7, 7, Int32.ofNat (length + 2)],
    .ofOp .hlt []]

/-- The printer of a text. -/
def executable (text : String) : Executable where
  start := text.length + 1
  program := (numbers text).map Word.data ++ code text.length

theorem length_numbers (text : String) : (numbers text).length = text.length + 1 := by
  rw [numbers, List.length_append, List.length_map, String.length_toList]
  rfl

/-! ## Tokens -/

/-- The tokens of the line that holds the text. -/
def textTokens (text : String) : List Token :=
  [⟨.label, "msg", 1⟩, ⟨.instruction, "WORD", 6⟩, ⟨.string, text, 11⟩]

/-- The tokens of the loop. -/
def loopTokens : List Token :=
  [⟨.label, "_start", 1⟩,
    ⟨.instruction, "LDI", 13⟩, ⟨.register, "R1", 17⟩, ⟨.reference, "msg", 22⟩,
    ⟨.label, "loop", 26⟩,
    ⟨.instruction, "LD", 36⟩, ⟨.register, "R0", 39⟩, ⟨.register, "R1", 44⟩,
    ⟨.instruction, "BEQ", 52⟩, ⟨.register, "R0", 56⟩, ⟨.register, "R7", 61⟩,
    ⟨.reference, "done", 66⟩,
    ⟨.instruction, "OUT", 75⟩, ⟨.register, "R0", 79⟩,
    ⟨.instruction, "ADDI", 87⟩, ⟨.register, "R1", 92⟩, ⟨.register, "R1", 97⟩, ⟨.number, "1", 102⟩,
    ⟨.instruction, "BEQ", 108⟩, ⟨.register, "R7", 112⟩, ⟨.register, "R7", 117⟩,
    ⟨.reference, "loop", 122⟩,
    ⟨.label, "done", 127⟩,
    ⟨.instruction, "HLT", 137⟩]

/-- Whatever the text is, the lexer reads it back from its literal. -/
theorem lex_textLine (text : String) : lex (textLine text) = .ok (textTokens text) := by
  have label : Identifier "msg".toList :=
    ⟨⟨_, _, rfl, rfl⟩, List.all_eq_true.1 (by decide +kernel)⟩
  have mnemonic : Identifier "WORD".toList :=
    ⟨⟨_, _, rfl, rfl⟩, List.all_eq_true.1 (by decide +kernel)⟩
  have literal : Spelled .string text ('"' :: (Literal.escaped text.toList ++ ['"'])) := by
    have spelled := Spelled.string (Literal.unescapes_escaped text.toList)
    rwa [String.ofList_toList] at spelled
  have ending : EndsLine [] := .inl rfl
  have comment : Move .top (';' :: " zero-terminated".toList) [] .top none :=
    .comment (by simp) ending
  -- One chunk for each move: the break, the label, the mnemonic, the literal and the comment, with
  -- blanks between them. The lexer leaves the arguments without reading anything.
  have parts : (textLine text).toList =
      ['\n'] ++ (("msg".toList ++ [':']) ++ ([' '] ++ (("WORD".toList ++ [' ']) ++
        (('"' :: (Literal.escaped text.toList ++ ['"'])) ++ ("   ".toList ++ ([] ++
          (';' :: " zero-terminated".toList ++ []))))))) := by
    simp [textLine]
  apply lex_of_course
  rw [parts]
  refine .move (.space rfl) (.move (.label label) (.move (.space rfl) ?_))
  refine .move (.mnemonic mnemonic (List.all_eq_true.1 rfl) (Text.ends_cons rfl) (by simp)
    (Text.ends_cons rfl)) ?_
  refine .move (.argument literal fun _ _ => rfl) ?_
  refine .move (.blanks (List.all_eq_true.1 rfl) (Text.ends_cons rfl) (by simp)) ?_
  exact .move (.leave (Text.ends_cons rfl)) (.move comment .stay)

theorem lex_loopLines : lex loopLines = .ok loopTokens :=
  lex_of_finishWithin 200 (by decide +kernel)

/-! ## The first pass -/

/-- The words and the label of the text. -/
def textDraft (text : String) : Draft where
  words := Draft.empty.words ++ (Item.data [.string text]).words
  labels := ⟨[("msg", 0)]⟩

/-- The words and the labels of the loop, which are counted from its own first word. -/
def loopDraft : Draft where
  words := #[
    .command .ldi [.literal 1, .label "msg"],
    .command .ld [.literal 0, .literal 1],
    .command .beq [.literal 0, .literal 7, .label "done"],
    .command .output [.literal 0],
    .command .addi [.literal 1, .literal 1, .literal 1],
    .command .beq [.literal 7, .literal 7, .label "loop"],
    .command .hlt []]
  labels := ⟨[("_start", 0), ("loop", 1), ("done", 6)]⟩

theorem extend_text (text : String) :
    Draft.empty.extend (textTokens text) = ((textDraft text).labels, .ok (textDraft text)) := by
  rw [textTokens, Draft.extend_cons rfl rfl, Draft.extend_cons rfl rfl]
  exact Draft.extend_nil (textDraft text)

theorem extend_loop : Draft.empty.extend loopTokens = (loopDraft.labels, .ok loopDraft) := by
  rw [loopTokens]
  iterate 10 rw [Draft.extend_cons rfl rfl]
  exact Draft.extend_nil loopDraft

theorem words_text (text : String) : (textDraft text).words.toList =
    (numbers text).map fun value => DraftWord.data (.literal value) := by
  simp [textDraft, Draft.empty, Item.words, Datum.words, numbers]

theorem size_text (text : String) : (textDraft text).words.size = text.length + 1 := by
  rw [← Array.length_toList, words_text, List.length_map, length_numbers]

/-- The text and the loop have no label in common. -/
theorem labels_apart (text name : String) :
    (textDraft text).labels.find? name = none ∨ loopDraft.labels.find? name = none := by
  by_cases own : name = "msg"
  · right
    rw [own]
    rfl
  · left
    simp [textDraft, LabelTable.find?, List.lookup_cons, beq_false_of_ne own]

/-! ## The second pass -/

/-- Behind the text, the words of the loop are those of the printer. -/
theorem relocated_loop (text : String) :
    loopDraft.words.toList.map (DraftWord.relocated (textDraft text).labels loopDraft.labels
      (textDraft text).words.size) = code text.length := by
  have done : text.length + 7 = 6 + (text.length + 1) := by
    omega
  have loop : text.length + 2 = 1 + (text.length + 1) := by
    omega
  rw [size_text, code, done, loop]
  rfl

section

variable {text : String} (small : text.length + 7 ≤ 2147483647)
include small

/-- The labels that the loop refers to have addresses within reach. -/
theorem placed_loop : ∀ name ∈ loopDraft.words.toList.flatMap DraftWord.references,
    PlacedBehind (textDraft text).labels loopDraft.labels (textDraft text).words.size name := by
  have names : ∀ name ∈ loopDraft.words.toList.flatMap DraftWord.references,
      name = "msg" ∨ name = "done" ∨ name = "loop" := by
    decide
  intro name member
  rw [size_text]
  rcases names name member with rfl | rfl | rfl
  · exact ⟨0, by omega, .inl rfl⟩
  · exact ⟨6 + (text.length + 1), by omega, .inr rfl⟩
  · exact ⟨1 + (text.length + 1), by omega, .inr rfl⟩

theorem link_joined : ((textDraft text).join loopDraft).link = .ok (executable text) := by
  have started :
      ((textDraft text).join loopDraft).labels.find? startLabel = some (text.length + 1) := by
    rw [Draft.join, LabelTable.find?_join, LabelTable.find?_moved, size_text]
    show some (0 + (text.length + 1)) = some (text.length + 1)
    rw [Nat.zero_add]
  have ahead : (textDraft text).words.toList.mapM
      (DraftWord.resolve ((textDraft text).join loopDraft).labels) =
        .ok ((numbers text).map Word.data) := by
    rw [words_text, mapM_literals]
  have behind := resolve_behind (labels_apart text) (placed_loop small)
  rw [relocated_loop] at behind
  simp only [Draft.link, started, words_join, List.mapM_append, ahead, behind]
  rfl

/-- The source of the printer is assembled. -/
theorem assemble_source : assemble (source text) = .ok (executable text) := by
  obtain ⟨-, items, read, adds⟩ := Draft.extend_ok (extend_text text)
  obtain ⟨-, others, read', adds'⟩ := Draft.extend_ok extend_loop
  have lexed := lex_append (lex_textLine text) lex_loopLines
  have extended := extend_append ((textLine text).length + 1) read adds read' adds'
    (Draft.ends_of_extend extend_loop) (labels_apart text)
  exact assemble_eq_ok_iff.2
    ⟨_, assembleWithLabels_of_draft _ lexed extended (link_joined small)⟩

end

end TickMachine.Printer
