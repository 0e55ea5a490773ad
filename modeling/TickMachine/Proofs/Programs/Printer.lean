import TickMachine.Proofs.Machine.Views
import TickMachine.Proofs.Programs.PrinterSource

/-! # The printer

The printer sends the characters of its text one after the other, each as the low byte of its
scalar, and stops at the zero behind them. Register 1 counts the characters that are sent, which is
the address of the next one; register 7 is zero throughout. -/

namespace TickMachine.Printer

/-- The byte that is sent for a character. -/
def byte (c : Char) : UInt8 := UInt8.ofNat (c.toNat % 256)

variable {text : String}

/-! ## The words of the program -/

theorem found_number {index : Nat} {value : Int32} (found : (numbers text)[index]? = some value) :
    (executable text).program[index]? = some (.data value) := by
  obtain ⟨inside, -⟩ := List.getElem?_eq_some_iff.1 found
  have front : index < ((numbers text).map Word.data).length := by
    rwa [List.length_map]
  rw [executable, List.getElem?_append_left front, List.getElem?_map, found]
  rfl

theorem found_character {index : Nat} {c : Char} (found : text.toList[index]? = some c) :
    (executable text).program[index]? = some (.data (Int32.ofNat c.toNat)) := by
  apply found_number
  obtain ⟨inside, -⟩ := List.getElem?_eq_some_iff.1 found
  have front : index < (text.toList.map fun c => Int32.ofNat c.toNat).length := by
    rwa [List.length_map]
  rw [numbers, List.getElem?_append_left front, List.getElem?_map, found]
  rfl

theorem found_zero (text : String) : (executable text).program[text.length]? = some (.data 0) := by
  apply found_number
  have front : (text.toList.map fun c => Int32.ofNat c.toNat).length = text.length := by
    rw [List.length_map, String.length_toList]
  rw [numbers, List.getElem?_append_right (Nat.le_of_eq front), front, Nat.sub_self]
  rfl

theorem found_code {word : Word} (index : Nat) (found : (code text.length)[index]? = some word) :
    (executable text).program[text.length + 1 + index]? = some word := by
  have front : ((numbers text).map Word.data).length = text.length + 1 := by
    rw [List.length_map, length_numbers]
  rw [executable, ← front, List.getElem?_append_right (Nat.le_add_right _ _),
    Nat.add_sub_cancel_left, found]

section

variable (text : String)

theorem carries_start :
    Carries (executable text).program (text.length + 1) (.loadImmediate .r1 0) :=
  ⟨_, ⟨.ldi, #v[1, 0]⟩, found_code 0 rfl, rfl, nofun, rfl⟩

theorem carries_load :
    Carries (executable text).program (text.length + 2) (.load .r0 (.register .r1)) :=
  ⟨_, ⟨.ld, #v[0, 1]⟩, found_code 1 rfl, rfl, nofun, rfl⟩

theorem carries_test :
    Carries (executable text).program (text.length + 3)
      (.branch .beq .r0 .r7 (Int32.ofNat (text.length + 7))) :=
  ⟨_, ⟨.beq, #v[0, 7, _]⟩, found_code 2 rfl, rfl, nofun, rfl⟩

theorem carries_send : Carries (executable text).program (text.length + 4) (.send .r0) :=
  ⟨_, ⟨.output, #v[0]⟩, found_code 3 rfl, rfl, nofun, rfl⟩

theorem carries_count :
    Carries (executable text).program (text.length + 5)
      (.arithmetic .addi .r1 .r1 (.immediate 1)) :=
  ⟨_, ⟨.addi, #v[1, 1, 1]⟩, found_code 4 rfl, rfl, nofun, rfl⟩

theorem carries_repeat :
    Carries (executable text).program (text.length + 6)
      (.branch .beq .r7 .r7 (Int32.ofNat (text.length + 2))) :=
  ⟨_, ⟨.beq, #v[7, 7, _]⟩, found_code 5 rfl, rfl, nofun, rfl⟩

theorem found_halt :
    (executable text).program[text.length + 7]? = some (.command Op.hlt.code []) :=
  found_code 6 rfl

end

/-! ## Characters as numbers -/

theorem toInt_character (c : Char) : (Int32.ofNat c.toNat).toInt = c.toNat := by
  apply Int32.toInt_ofNat_of_lt
  have valid : c.toNat < 55296 ∨ 57343 < c.toNat ∧ c.toNat < 1114112 := c.valid
  omega

theorem lowByte_character (c : Char) : DataPath.lowByte (Int32.ofNat c.toNat) = byte c := by
  have sent := Machine.lowByte_toNat (Int32.ofNat c.toNat)
  rw [toInt_character] at sent
  apply UInt8.toNat_inj.1
  rw [byte, UInt8.toNat_ofNat']
  omega

/-- No character of the text is taken for its end. -/
theorem holds_character {c : Char} (visible : c ≠ '\x00') :
    Op.beq.holds (Int32.ofNat c.toNat) 0 = false := by
  rw [InstructionTable.beq_holds, toInt_character, decide_eq_false_iff_not]
  intro zero
  have zero : (c.toNat : Int) = 0 := zero
  apply visible
  apply Char.toNat_inj.1
  exact Int.natCast_eq_zero.1 zero

/-! ## The loop -/

/-- The view at the start of the loop after a number of characters. -/
structure AtLoop (text : String) (count : Nat) (view : View) : Prop where
  ip : view.ip = text.length + 2
  pointer : view.registers .r1 = Int32.ofNat count
  zero : view.registers .r7 = 0
  output : view.output = (text.toList.take count).map byte
  instructions : view.instructions = 5 * count + 1
  ticks : view.ticks = 7 * count + 1

section

variable (small : text.length + 7 ≤ 2147483647)
include small

/-- Register 1 holds the address of the next character, or of the zero behind the last one. -/
theorem AtLoop.address {count : Nat} {view : View} (before : AtLoop text count view)
    (within : count ≤ text.length) : (view.registers .r1).toInt = count := by
  rw [before.pointer]
  apply Int32.toInt_ofNat_of_lt
  omega

/-- One round of the loop sends one character. -/
theorem leads_round {count : Nat} {c : Char} {view : View} (before : AtLoop text count view)
    (found : text.toList[count]? = some c) (visible : c ≠ '\x00') :
    ∃ next, view.Leads (executable text).program 5 next ∧ AtLoop text (count + 1) next := by
  obtain ⟨inside, -⟩ := List.getElem?_eq_some_iff.1 found
  rw [String.length_toList] at inside
  have place := before.address small (Nat.le_of_lt inside)
  obtain ⟨ip, registers, input, output, instructions, ticks⟩ := view
  obtain ⟨rfl, pointer, zero, rfl, rfl, rfl⟩ := before
  simp only at pointer zero
  have target : (Int32.ofNat (text.length + 2)).toInt = (text.length + 2 : Nat) :=
    Int32.toInt_ofNat_of_lt (by omega)
  have differs : Op.beq.holds (Int32.ofNat c.toNat) (registers .r7) = false := by
    rw [zero]
    exact holds_character visible
  have same : Op.beq.holds (registers .r7) (registers .r7) = true := beq_self_eq_true _
  -- The test for the end fails on the character, and the last branch always leads back.
  refine ⟨_, .move (.load (carries_load text) place (found_character found))
    (.move (.pass (carries_test text) rfl differs)
    (.move (.send (carries_send text) (lowByte_character c))
    (.move (.arithmetic (carries_count text) rfl)
    (.move (.jump (carries_repeat text) rfl same target) .stay)))), ?_⟩
  constructor
  · rfl
  · show registers .r1 + 1 = Int32.ofNat (count + 1)
    rw [pointer, Int32.ofNat_add]
    rfl
  · exact zero
  · show (text.toList.take count).map byte ++ [byte c] = (text.toList.take (count + 1)).map byte
    rw [List.take_add_one, found, List.map_append]
    rfl
  · show 5 * count + 1 + 1 + 1 + 1 + 1 + 1 = 5 * (count + 1) + 1
    omega
  · show 7 * count + 1 + 2 + 1 + 1 + 2 + 1 = 7 * (count + 1) + 1
    omega

section

variable (visible : '\x00' ∉ text.toList) (input : List UInt8)
include visible

/-- The program sends the characters one after the other. -/
theorem leads_rounds {count : Nat} (within : count ≤ text.length) :
    ∃ view, View.Leads (executable text).program (5 * count + 1) { ip := text.length + 1, input }
      view ∧ AtLoop text count view := by
  induction count with
  | zero =>
    exact ⟨_, .move (.loadImmediate (carries_start text)) .stay, rfl, rfl, rfl, rfl, rfl, rfl⟩
  | succ count ih =>
    obtain ⟨view, leads, before⟩ := ih (Nat.le_of_succ_le within)
    have inside : count < text.toList.length := by
      rwa [String.length_toList]
    have found := List.getElem?_eq_getElem inside
    have character : text.toList[count] ≠ '\x00' := by
      intro same
      exact visible (same ▸ List.getElem_mem inside)
    obtain ⟨next, round, after⟩ := leads_round small before found character
    have moves : 5 * count + 1 + 5 = 5 * (count + 1) + 1 := by
      omega
    exact ⟨next, moves ▸ leads.trans round, after⟩

/-- Behind the last character the program finds the zero and leaves the loop. -/
theorem leads_end :
    ∃ last, View.Leads (executable text).program (5 * text.length + 3)
        { ip := text.length + 1, input } last ∧
      last.ip = text.length + 7 ∧ last.output = text.toList.map byte ∧
      last.instructions = 5 * text.length + 3 ∧ last.ticks = 7 * text.length + 4 := by
  obtain ⟨⟨ip, registers, input, output, instructions, ticks⟩, leads, before⟩ :=
    leads_rounds small visible input (Nat.le_refl text.length)
  have place := before.address small (Nat.le_refl text.length)
  obtain ⟨rfl, -, zero, rfl, rfl, rfl⟩ := before
  simp only at zero
  have target : (Int32.ofNat (text.length + 7)).toInt = (text.length + 7 : Nat) :=
    Int32.toInt_ofNat_of_lt (by omega)
  have same : Op.beq.holds 0 (registers .r7) = true := by
    rw [zero]
    rfl
  refine ⟨_, leads.trans (.move (.load (carries_load text) place (found_zero text))
    (.move (.jump (carries_test text) rfl same target) .stay)), rfl, ?_, rfl, rfl⟩
  show (text.toList.take text.length).map byte = text.toList.map byte
  rw [← String.length_toList, List.take_length]

/-- The program halts when it has sent its text. -/
theorem run_executable (memoryScale : Nat) :
    ∃ rest, ∀ fuel, 5 * text.length + 3 < fuel →
      (Machine.load (executable text) input { memoryScale }).run fuel = some (.ok
        { output := text.toList.map byte
          ticks := 7 * text.length + 4
          instructions := 5 * text.length + 3
          halted := true } rest) := by
  obtain ⟨last, leads, ip, output, instructions, ticks⟩ := leads_end small visible input
  have halt : (executable text).program[last.ip]? = some (.command Op.hlt.code []) := by
    rw [ip]
    exact found_halt text
  have limit : Counter.limit = 18446744073709551615 := rfl
  have shows := Machine.shows_load (executable text) input memoryScale
  have ran := Machine.run_of_leads shows leads halt
  rw [output, instructions, ticks, Nat.min_eq_left (by omega), Nat.min_eq_left (by omega)] at ran
  exact ran

end

end

/-- The printer works for every text. Its source, with the literal of the text in it, is assembled,
and the program starts behind the words of the text. On any input and with any memory it halts, and
it has sent the low byte of each character of the text, in their order. -/
theorem printer_prints {text : String} (visible : '\x00' ∉ text.toList)
    (small : text.length + 7 ≤ 2147483647) :
    ∃ program, assemble (source text) = .ok program ∧ program.start = text.length + 1 ∧
      ∀ (input : List UInt8) (memoryScale : Nat), ∃ rest, ∀ fuel, 5 * text.length + 3 < fuel →
        (Machine.load program input { memoryScale }).run fuel = some (.ok
          { output := text.toList.map byte
            ticks := 7 * text.length + 4
            instructions := 5 * text.length + 3
            halted := true } rest) := by
  refine ⟨executable text, assemble_source small, rfl, ?_⟩
  intro input memoryScale
  exact run_executable small visible input memoryScale

/-- A text with a quote, a backslash and a character beyond the bytes. -/
theorem printer_prints_escaped :
    let text := "é\"\\€"
    '\x00' ∉ text.toList ∧ text.length + 7 ≤ 2147483647 ∧
      ∃ program, assemble (source text) = .ok program ∧ program.start = 5 ∧
        ∀ (input : List UInt8) (memoryScale : Nat), ∃ rest, ∀ fuel, 23 < fuel →
          (Machine.load program input { memoryScale }).run fuel = some (.ok
            { output := [233, 34, 92, 172], ticks := 32, instructions := 23, halted := true }
            rest) := by
  intro text
  have length : text.length = 4 := by decide +kernel
  have sent : text.toList.map byte = [233, 34, 92, 172] := by decide +kernel
  have visible : '\x00' ∉ text.toList := by decide +kernel
  have small : text.length + 7 ≤ 2147483647 := by
    rw [length]
    decide
  have prints := printer_prints visible small
  rw [length, sent] at prints
  exact ⟨visible, small, prints⟩

end TickMachine.Printer
