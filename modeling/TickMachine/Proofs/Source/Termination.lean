import TickMachine.Proofs.Source.Moves

/-! # The lexer comes to an end

A mode that reads a lexeme is only entered in front of a character that begins one, so that it
passes over that character at least. The other modes give way to modes of lower height, whether they
pass over something or not. So every cycle of modes passes over a part of the text, and the lexer,
which never stands behind the end of the text, is done after a number of transitions that the length
of the text bounds. -/

namespace TickMachine.Lexer

open Charset

/-! ## Transitions up to the end -/

/-- The lexer after one more transition. A fault is reported in a transition of its own, behind
which the lexer is done. -/
def Scan.step (scan : Scan) : Scan :=
  match scan.mode with
  | .failed _ => { scan with mode := .done }
  | _ => scan.next

/-- The lexer after a number of transitions. -/
def Scan.after (scan : Scan) : Nat → Scan
  | 0 => scan
  | count + 1 => scan.step.after count

/-- The tokens completed in a number of transitions, and the error reported in them. -/
def Scan.found (scan : Scan) (count : Nat) : Tokens where
  tokens := (List.range count).filterMap fun earlier => (scan.after earlier).token?
  error := (List.range count).findSome? fun earlier => (scan.after earlier).error?

/-- The modes that read a comment or a lexeme. -/
def Mode.reads : Mode → Bool
  | .comment | .label | .instruction | .number | .reference | .register | .string => true
  | .top | .argument | .separator | .failed _ | .done => false

/-- The height of a mode: its rank, with the end below the faults. -/
def Mode.height : Mode → Nat
  | .done => 0
  | mode => mode.rank + 1

theorem Mode.height_le (mode : Mode) : mode.height ≤ 5 := by
  cases mode <;> simp [height, rank]

theorem isFinal_of_reads {mode : Mode} (reads : mode.reads = true) : mode.isFinal = false := by
  cases mode <;> first | rfl | cases reads

theorem isFinal_of_done {mode : Mode} (done : mode = .done) : mode.isFinal = true := by
  rw [done]
  rfl

theorem Mode.height_reads {mode : Mode} (reads : mode.reads = true) : mode.height = 2 := by
  cases mode <;> first | rfl | cases reads

/-- What stands in front of the lexer where a mode is entered. -/
inductive Faces : Mode → List Char → Prop
  | comment {rest : List Char} : Faces .comment (';' :: rest)
  | label {c : Char} {rest : List Char} (start : isStart c = true)
    (ahead : labelAhead (c :: rest) = true) : Faces .label (c :: rest)
  | instruction {c : Char} {rest : List Char} (start : isStart c = true)
    (other : labelAhead (c :: rest) = false) : Faces .instruction (c :: rest)
  | number {c : Char} {rest : List Char} (numeric : c.isDigit = true ∨ isSign c = true) :
    Faces .number (c :: rest)
  | reference {c : Char} {rest : List Char} (start : isStart c = true) :
    Faces .reference (c :: rest)
  | register {rest : List Char} : Faces .register ('%' :: rest)
  | string {rest : List Char} : Faces .string ('"' :: rest)
  | between {mode : Mode} {text : List Char} (between : mode.reads = false) : Faces mode text

/-! ## The modes that read -/

section

variable {mode : Mode} {text : List Char}

theorem name_of_isStart {c : Char} {rest : List Char} (start : isStart c = true) :
    (c :: rest).takeWhile isSymbol = c :: rest.takeWhile isSymbol := by
  rw [List.takeWhile_cons, if_pos (isSymbol_of_isStart start)]

/-- A mode that reads passes over the character in front of which it is entered. -/
theorem used_pos (faces : Faces mode text) (reads : mode.reads = true) :
    0 < (mode.transition text).used := by
  cases faces with
  | comment => simp [Mode.transition, comment, run]
  | label start ahead =>
    simp only [Mode.transition, label, name_of_isStart start]
    split <;> exact Nat.succ_pos _
  | instruction start other =>
    simp only [Mode.transition, instruction, name_of_isStart start, List.cons_ne_nil, if_false]
    exact Nat.add_pos_left (Nat.succ_pos _) _
  | @number c rest numeric =>
    simp only [Mode.transition, number]
    cases sign : isSign c with
    | true =>
      have signs : ((c :: rest).take 1).filter isSign = [c] := by simp [sign]
      rw [signs]
      split
      · exact Nat.one_pos
      · exact Nat.succ_pos _
    | false =>
      have digit : c.isDigit = true := numeric.resolve_right (by simp [sign])
      have signs : ((c :: rest).take 1).filter isSign = [] := by simp [sign]
      rw [signs, List.length_nil, List.drop_zero, List.takeWhile_cons, if_pos digit,
        if_neg (List.cons_ne_nil _ _)]
      exact Nat.succ_pos _
  | reference start =>
    simp only [Mode.transition, reference, name_of_isStart start, List.cons_ne_nil, if_false]
    exact Nat.succ_pos _
  | register =>
    simp only [Mode.transition, register]
    split <;> exact Nat.succ_pos _
  | @string rest =>
    have passed := Literal.le_scan_used [] 1 rest
    simp only [Mode.transition, string]
    split
    · next closed => rwa [closed] at passed
    · next faulty => rwa [faulty] at passed
  | between between => rw [between] at reads; cases reads

theorem faces_entry (text : List Char) : Faces (entry text) text := by
  cases text with
  | nil => exact .between rfl
  | cons c rest =>
    simp only [entry]
    split
    · next same =>
      subst same
      exact .comment
    · split
      · next start =>
        cases ahead : labelAhead (c :: rest)
        · exact .instruction start ahead
        · exact .label start ahead
      · exact .between rfl

/-- A mode is entered in front of what it reads. -/
theorem faces_next (mode : Mode) (text : List Char) :
    Faces (mode.transition text).mode (text.drop (mode.transition text).used) := by
  cases mode with
  | top => exact faces_entry _
  | argument =>
    cases text with
    | nil => exact .between rfl
    | cons c rest =>
      simp only [Mode.transition, argument]
      split
      · next numeric => exact .number (Bool.or_eq_true_iff.1 numeric)
      · split
        · next start => exact .reference start
        · split
          · next same =>
            subst same
            exact .register
          · split
            · next same =>
              subst same
              exact .string
            · exact .between rfl
  | comment =>
    simp only [Mode.transition, comment]
    split <;> exact .between rfl
  | label =>
    simp only [Mode.transition, label]
    split <;> exact .between rfl
  | instruction =>
    simp only [Mode.transition, instruction]
    split
    · exact .between rfl
    · split
      · exact .between rfl
      · split <;> exact .between rfl
  | number =>
    simp only [Mode.transition, number]
    split <;> exact .between rfl
  | reference =>
    simp only [Mode.transition, reference]
    split <;> exact .between rfl
  | register =>
    simp only [Mode.transition, register]
    split
    · split <;> exact .between rfl
    · exact .between rfl
  | string =>
    simp only [Mode.transition, string]
    split
    · split <;> exact .between rfl
    · exact .between rfl
  | separator | failed fault | done => exact .between rfl

/-- A mode that does not read gives way to a mode of lower height. -/
theorem height_lt (between : mode.reads = false) (other : mode.isFinal = false) :
    (mode.transition text).mode.height < mode.height := by
  cases mode with
  | top =>
    simp only [Mode.transition, top, entry]
    repeat' split
    all_goals simp [Mode.height, Mode.rank]
  | argument =>
    simp only [Mode.transition, argument]
    repeat' split
    all_goals simp [Mode.height, Mode.rank]
  | separator => exact Nat.lt_succ_self _
  | failed fault | done => cases other
  | comment | label | instruction | number | reference | register | string => cases between

end

/-! ## Places in the text -/

/-- Where the lexer stands in a text: not behind its end, and in front of what its mode reads. -/
structure Placed (text : List Char) (scan : Scan) : Prop where
  inside : scan.position ≤ text.length
  rest : scan.rest = text.drop scan.position
  faces : Faces scan.mode scan.rest

/-- A transition passes over a character, or leads to a mode of lower height at the same place. -/
def Scan.Advances (scan : Scan) : Prop :=
  scan.position < scan.step.position ∨
    scan.step.position = scan.position ∧ scan.step.mode.height < scan.mode.height

/-- The bound on the number of transitions that are left. -/
def Scan.weight (scan : Scan) : Nat := 4 * scan.rest.length + scan.mode.height

section

variable {text : List Char} {scan : Scan}

theorem step_cases (scan : Scan) :
    (∃ fault, scan.mode = .failed fault ∧ scan.step = { scan with mode := .done }) ∨
      (∀ fault, scan.mode ≠ .failed fault) ∧ scan.step = scan.next := by
  unfold Scan.step
  split
  · next fault failed => exact .inl ⟨fault, failed, rfl⟩
  · next others => exact .inr ⟨others, rfl⟩

theorem step_active (active : scan.mode.isFinal = false) : scan.step = scan.next := by
  rcases step_cases scan with ⟨fault, failed, -⟩ | ⟨-, same⟩
  · rw [failed] at active
    cases active
  · exact same

theorem final_cases (final : scan.mode.isFinal = true) :
    (∃ fault, scan.mode = .failed fault) ∨ scan.mode = .done := by
  cases mode : scan.mode with
  | failed fault => exact .inl ⟨fault, rfl⟩
  | done => exact .inr rfl
  | _ =>
    rw [mode] at final
    cases final

/-- Behind a fault and at the end the lexer is done. -/
theorem step_final (final : scan.mode.isFinal = true) : scan.step.mode = .done := by
  rcases step_cases scan with ⟨fault, failed, same⟩ | ⟨others, same⟩
  · rw [same]
  · have done := (final_cases final).resolve_left fun ⟨fault, failed⟩ => others fault failed
    rw [same]
    simp only [Scan.next, Scan.transition, done, Mode.transition]

theorem placed_start (text : List Char) : Placed text (Scan.start text) where
  inside := Nat.zero_le _
  rest := rfl
  faces := .between rfl

theorem Placed.length_rest (placed : Placed text scan) :
    scan.position + scan.rest.length = text.length := by
  rw [placed.rest, List.length_drop]
  exact Nat.add_sub_cancel' placed.inside

theorem Placed.next (placed : Placed text scan) : Placed text scan.next where
  inside := by
    have used : scan.transition.used ≤ scan.rest.length := used_le scan.mode scan.rest
    have length := placed.length_rest
    simp only [Scan.next]
    omega
  rest := by
    simp only [Scan.next]
    rw [placed.rest, List.drop_drop]
  faces := faces_next scan.mode scan.rest

/-- A transition leaves the lexer inside the text, in front of what its mode reads. -/
theorem Placed.step (placed : Placed text scan) : Placed text scan.step := by
  rcases step_cases scan with ⟨fault, failed, same⟩ | ⟨-, same⟩
  · rw [same]
    exact ⟨placed.inside, placed.rest, .between rfl⟩
  · rw [same]
    exact placed.next

theorem Placed.after (placed : Placed text scan) (count : Nat) :
    Placed text (scan.after count) := by
  induction count generalizing scan with
  | zero => exact placed
  | succ count ih => exact ih placed.step

/-! ## Advance -/

theorem position_le_step (scan : Scan) : scan.position ≤ scan.step.position := by
  rcases step_cases scan with ⟨fault, -, same⟩ | ⟨-, same⟩
  · exact Nat.le_of_eq (congrArg Scan.position same).symm
  · rw [same]
    exact Nat.le_add_right _ _

theorem Placed.position_lt_step (placed : Placed text scan) (reads : scan.mode.reads = true) :
    scan.position < scan.step.position := by
  rw [step_active (isFinal_of_reads reads)]
  exact Nat.lt_add_of_pos_right (used_pos placed.faces reads)

theorem height_step_lt (between : scan.mode.reads = false) (going : scan.mode ≠ .done) :
    scan.step.mode.height < scan.mode.height := by
  cases final : scan.mode.isFinal with
  | false =>
    rw [step_active final]
    exact height_lt between final
  | true =>
    obtain ⟨fault, failed⟩ := (final_cases final).resolve_right going
    rw [step_final final, failed]
    exact Nat.one_pos

theorem Placed.advances (placed : Placed text scan) (going : scan.mode ≠ .done) :
    scan.Advances := by
  cases reads : scan.mode.reads with
  | true => exact .inl (placed.position_lt_step reads)
  | false =>
    rcases Nat.lt_or_eq_of_le (position_le_step scan) with further | same
    · exact .inl further
    · exact .inr ⟨same.symm, height_step_lt reads going⟩

/-- A lexeme weighs more than the modes from which the next one is reached. -/
theorem Placed.weight_lt (placed : Placed text scan) (going : scan.mode ≠ .done) :
    scan.step.weight < scan.weight := by
  have before := placed.length_rest
  have behind := placed.step.length_rest
  unfold Scan.weight
  cases reads : scan.mode.reads with
  | true =>
    have further := placed.position_lt_step reads
    have height := Mode.height_reads reads
    have above := scan.step.mode.height_le
    omega
  | false =>
    have onward := position_le_step scan
    have lower := height_step_lt reads going
    omega

theorem Placed.done_within (placed : Placed text scan) {bound : Nat} (light : scan.weight ≤ bound) :
    ∃ count ≤ bound, (scan.after count).mode = .done := by
  induction bound generalizing scan with
  | zero =>
    by_cases done : scan.mode = .done
    · exact ⟨0, Nat.le_refl 0, done⟩
    · exact absurd (Nat.lt_of_lt_of_le (placed.weight_lt done) light) (Nat.not_lt_zero _)
  | succ bound ih =>
    by_cases done : scan.mode = .done
    · exact ⟨0, Nat.zero_le _, done⟩
    · have lighter := Nat.le_of_lt_succ (Nat.lt_of_lt_of_le (placed.weight_lt done) light)
      obtain ⟨count, few, ended⟩ := ih placed.step lighter
      exact ⟨count + 1, Nat.succ_le_succ few, ended⟩

/-- At the end of the white space between items the lexer looks at what is left of the text. -/
theorem Placed.step_top (placed : Placed text scan) (top : scan.mode = .top) :
    scan.step.mode = entry (text.drop scan.step.position) := by
  have active : scan.mode.isFinal = false := by rw [top]; rfl
  rw [step_active active, ← placed.next.rest]
  simp only [Scan.next, Scan.transition, top, Mode.transition, Lexer.top]

/-! ## The tokens that are found -/

theorem found_succ (scan : Scan) (count : Nat) :
    scan.found (count + 1) =
      ⟨scan.token?.toList ++ (scan.step.found count).tokens,
        scan.error?.or (scan.step.found count).error⟩ := by
  unfold Scan.found
  rw [List.range_succ_eq_map, List.filterMap_cons, List.findSome?_cons, List.filterMap_map,
    List.findSome?_map]
  simp only [Scan.after, Function.comp_def]
  cases scan.token? <;> cases scan.error? <;> rfl

theorem token?_of_final (final : scan.mode.isFinal = true) : scan.token? = none := by
  rcases final_cases final with ⟨fault, failed⟩ | done
  · simp only [Scan.token?, Scan.transition, failed, Mode.transition, Option.map_none]
  · simp only [Scan.token?, Scan.transition, done, Mode.transition, Option.map_none]

theorem error?_of_active (active : scan.mode.isFinal = false) : scan.error? = none := by
  unfold Scan.error?
  split
  · next failed =>
    rw [failed] at active
    cases active
  · rfl

theorem error?_of_done (done : scan.mode = .done) : scan.error? = none := by
  rw [Scan.error?, done]

/-- The lexer finds nothing more when it is done. -/
theorem found_of_done (done : scan.mode = .done) (count : Nat) : scan.found count = ⟨[], none⟩ := by
  induction count generalizing scan with
  | zero => rfl
  | succ count ih =>
    have final := isFinal_of_done done
    rw [found_succ, ih (step_final final), token?_of_final final, error?_of_done done]
    rfl

/-- The lexer has found every token and the error when it is done. -/
theorem finish_of_done {count : Nat} (done : (scan.after count).mode = .done)
    (before : List Token) :
    scan.finish before =
      ⟨before.reverse ++ (scan.found count).tokens, (scan.found count).error⟩ := by
  induction count generalizing scan before with
  | zero =>
    have ended : scan.mode = .done := done
    rw [finish_of_final (isFinal_of_done ended), found_of_done ended, List.append_nil,
      error?_of_done ended]
  | succ count ih =>
    rw [found_succ]
    cases final : scan.mode.isFinal with
    | true =>
      rw [finish_of_final final, found_of_done (step_final final), token?_of_final final]
      simp
    | false =>
      rw [finish_of_active final, ← step_active final, ih done, error?_of_active final]
      cases scan.token? <;> simp

end

/-! ## The lexer comes to an end -/

/-- Wherever its transitions lead the lexer, it stands inside the text, in front of what its mode
reads, and looks ahead at the text from there; a lexeme takes a character at least, and every
transition takes a character or leads to a mode of lower height. So the lexer is done after a number
of transitions that the length of the text bounds, and it has then found the tokens and the error of
the text. -/
theorem lexer_comes_to_an_end (text : String) :
    (∀ count, let scan := (Scan.start text.toList).after count
      Placed text.toList scan ∧
        (scan.mode.reads = true → scan.position < scan.step.position) ∧
        (scan.mode = .top → scan.step.position ≤ text.toList.length ∧
          scan.step.mode = entry (text.toList.drop scan.step.position)) ∧
        (scan.mode ≠ .done → scan.Advances)) ∧
      ∃ count ≤ 4 * text.toList.length + 3,
        ((Scan.start text.toList).after count).mode = .done ∧
          tokenize text = (Scan.start text.toList).found count := by
  have start := placed_start text.toList
  refine ⟨fun count => ?_, ?_⟩
  · have placed := start.after count
    exact ⟨placed, placed.position_lt_step, fun top => ⟨placed.step.inside, placed.step_top top⟩,
      placed.advances⟩
  · have light : (Scan.start text.toList).weight ≤ 4 * text.toList.length + 3 := Nat.le_refl _
    obtain ⟨count, few, done⟩ := start.done_within light
    exact ⟨count, few, done, finish_of_done done []⟩

end TickMachine.Lexer
