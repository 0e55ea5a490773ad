import TickMachine.Proofs.Source.Decompositions

/-! # What carries no meaning

Comments may be deleted, a comma may be replaced by a space, and a run of blanks by another one. A
text that is retouched in this way, in as many of these places as one likes, has the same tokens as
before, up to where they stand: whatever has been read in front, what is left of the text is taken
apart in the same way. -/

namespace TickMachine

namespace Lexer

open Charset

/-! ## Retouched texts -/

/-- Where in a text a character stands. -/
inductive Place
  /-- Outside strings and comments. -/
  | code
  /-- Inside a string. -/
  | quoted
  /-- Inside a string, behind a backslash. -/
  | escaped
  /-- Inside a comment. -/
  | comment
  deriving DecidableEq

/-- The place behind a character. -/
def Place.next : Place → Char → Place
  | .code, c => if c = '"' then .quoted else if c = ';' then .comment else .code
  | .quoted, c => if c = '"' then .code else if c = '\\' then .escaped else .quoted
  | .escaped, _ => .quoted
  | .comment, c => if c = '\n' then .code else .comment

/-- A text that starts in a place, and the text into which it is retouched: comments are kept or
deleted up to the end of their lines, commas outside strings and comments are kept or replaced by a
space, and each run of blanks there is replaced by a run of blanks, the same or another one. All
else is kept. -/
inductive Retouched : Place → List Char → List Char → Prop
  | nil {place : Place} : Retouched place [] []
  | keep {place : Place} {c : Char} {rest rest' : List Char}
    (visible : place = .code → isBlank c = false) (others : Retouched (place.next c) rest rest') :
    Retouched place (c :: rest) (c :: rest')
  | comment {text rest rest' : List Char} (inside : ∀ c ∈ text, c ≠ '\n') (ends : EndsLine rest)
    (others : Retouched .code rest rest') : Retouched .code (';' :: text ++ rest) rest'
  | comma {rest rest' : List Char} (others : Retouched .code rest rest') :
    Retouched .code (',' :: rest) (' ' :: rest')
  | blanks {run run' rest rest' : List Char} (filled : run ≠ []) (filled' : run' ≠ [])
    (white : ∀ c ∈ run, isBlank c = true) (white' : ∀ c ∈ run', isBlank c = true)
    (ends : Text.Ends isBlank rest) (others : Retouched .code rest rest') :
    Retouched .code (run ++ rest) (run' ++ rest')

/-- What may become of a text that starts with a character. -/
inductive RetouchedCons (c : Char) (rest out : List Char) : Place → Prop
  | keep {place : Place} {rest' : List Char} (visible : place = .code → isBlank c = false)
    (others : Retouched (place.next c) rest rest') (result : out = c :: rest') :
    RetouchedCons c rest out place
  | comment {text behind : List Char} (semicolon : c = ';') (split : rest = text ++ behind)
    (inside : ∀ d ∈ text, d ≠ '\n') (ends : EndsLine behind)
    (others : Retouched .code behind out) : RetouchedCons c rest out .code
  | comma {rest' : List Char} (comma : c = ',') (others : Retouched .code rest rest')
    (result : out = ' ' :: rest') : RetouchedCons c rest out .code
  | blanks {run run' behind behind' : List Char} (split : rest = run ++ behind)
    (filled : run' ≠ []) (white : ∀ d ∈ c :: run, isBlank d = true)
    (white' : ∀ d ∈ run', isBlank d = true) (others : Retouched .code behind behind')
    (result : out = run' ++ behind') : RetouchedCons c rest out .code

section

variable {place : Place} {c : Char} {text rest out : List Char}

theorem retouched_nil (retouched : Retouched place [] out) : out = [] := by
  generalize shape : [] = text at retouched
  cases retouched with
  | nil => rfl
  | keep | comment | comma => cases shape
  | blanks filled => exact absurd (List.append_eq_nil_iff.1 shape.symm).1 filled

theorem retouched_cons (retouched : Retouched place (c :: rest) out) :
    RetouchedCons c rest out place := by
  generalize shape : c :: rest = text at retouched
  cases retouched with
  | nil => cases shape
  | keep visible others =>
    cases shape
    exact .keep visible others rfl
  | comment inside ends others =>
    cases shape
    exact .comment rfl rfl inside ends others
  | comma others =>
    cases shape
    exact .comma rfl others rfl
  | @blanks run run' behind _ filled filled' white white' ends others =>
    obtain ⟨d, run, rfl⟩ := List.exists_cons_of_ne_nil filled
    cases shape
    exact .blanks rfl filled' white white' others rfl

/-! ## Characters that are kept -/

theorem retouched_elsewhere (other : place ≠ .code) (retouched : Retouched place (c :: rest) out) :
    ∃ rest', out = c :: rest' ∧ Retouched (place.next c) rest rest' := by
  cases retouched_cons retouched with
  | keep _ others result => exact ⟨_, result, others⟩
  | comment | comma | blanks => exact absurd rfl other

/-- The characters that are kept wherever they stand. -/
structure Kept (c : Char) : Prop where
  visible : isBlank c = false
  comma : c ≠ ','
  semicolon : c ≠ ';'

theorem retouched_kept (kept : Kept c) (retouched : Retouched place (c :: rest) out) :
    ∃ rest', out = c :: rest' ∧ Retouched (place.next c) rest rest' := by
  cases retouched_cons retouched with
  | keep _ others result => exact ⟨_, result, others⟩
  | comment semicolon => exact absurd semicolon kept.semicolon
  | comma comma => exact absurd comma kept.comma
  | blanks _ _ white =>
    have blank := white c List.mem_cons_self
    rw [kept.visible] at blank
    cases blank

/-- A text of characters that are kept and begin no string is kept. -/
theorem retouched_plain (plain : ∀ c ∈ text, Kept c ∧ c ≠ '"')
    (retouched : Retouched .code (text ++ rest) out) :
    ∃ rest', out = text ++ rest' ∧ Retouched .code rest rest' := by
  induction text generalizing out with
  | nil => exact ⟨out, rfl, retouched⟩
  | cons c text ih =>
    obtain ⟨kept, quote⟩ := plain c List.mem_cons_self
    obtain ⟨behind, rfl, others⟩ := retouched_kept kept retouched
    rw [Place.next, if_neg quote, if_neg kept.semicolon] at others
    obtain ⟨rest', rfl, last⟩ := ih (fun d member => plain d (List.mem_cons_of_mem _ member)) others
    exact ⟨rest', rfl, last⟩

theorem retouched_quoted {value : List Char} (unescapes : Literal.Unescapes text value)
    (retouched : Retouched .quoted (text ++ rest) out) :
    ∃ rest', out = text ++ rest' ∧ Retouched .quoted rest rest' := by
  have inString : Place.quoted ≠ .code := Place.noConfusion
  have behindBackslash : Place.escaped ≠ .code := Place.noConfusion
  induction unescapes generalizing out with
  | nil => exact ⟨out, rfl, retouched⟩
  | plain quote backslash _ ih =>
    obtain ⟨behind, rfl, others⟩ := retouched_elsewhere inString retouched
    rw [Place.next, if_neg quote, if_neg backslash] at others
    obtain ⟨rest', rfl, last⟩ := ih others
    exact ⟨rest', rfl, last⟩
  | escape _ _ ih =>
    obtain ⟨behind, rfl, escaped⟩ := retouched_elsewhere inString retouched
    obtain ⟨behind, rfl, others⟩ := retouched_elsewhere behindBackslash escaped
    obtain ⟨rest', rfl, last⟩ := ih others
    exact ⟨rest', rfl, last⟩

theorem retouched_comment (inside : ∀ c ∈ text, c ≠ '\n')
    (retouched : Retouched .comment (text ++ rest) out) :
    ∃ rest', out = text ++ rest' ∧ Retouched .comment rest rest' := by
  induction text generalizing out with
  | nil => exact ⟨out, rfl, retouched⟩
  | cons c text ih =>
    obtain ⟨behind, rfl, others⟩ := retouched_elsewhere Place.noConfusion retouched
    rw [Place.next, if_neg (inside c List.mem_cons_self)] at others
    obtain ⟨rest', rfl, last⟩ :=
      ih (fun d member => inside d (List.mem_cons_of_mem _ member)) others
    exact ⟨rest', rfl, last⟩

/-! ## Lexemes are kept -/

theorem kept_newline : Kept '\n' := ⟨rfl, by decide, by decide⟩

theorem plain_of_isSymbol (symbol : isSymbol c = true) : Kept c ∧ c ≠ '"' := by
  have other : ∀ d, isSymbol d = false → c ≠ d := by
    rintro d outside rfl
    rw [symbol] at outside
    cases outside
  refine ⟨⟨?_, other ',' rfl, other ';' rfl⟩, other '"' rfl⟩
  simp only [isBlank, beq_false_of_ne (other ' ' rfl), beq_false_of_ne (other '\t' rfl),
    beq_false_of_ne (other '\r' rfl), Bool.or_false]

theorem isSymbol_of_isDigit (digit : c.isDigit = true) : isSymbol c = true := by
  rw [isSymbol, Char.isAlphanum, digit, Bool.or_true, Bool.true_or]

theorem plain_of_numeral {sign digits : List Char} (numeral : Numeral sign digits) :
    ∀ c ∈ sign ++ digits, Kept c ∧ c ≠ '"' := by
  refine List.forall_mem_append.2 ⟨?_, fun c member =>
    plain_of_isSymbol (isSymbol_of_isDigit (numeral.decimal c member))⟩
  rcases numeral.marked with rfl | ⟨c, rfl, mark⟩
  · exact nofun
  · intro d member
    rw [List.mem_singleton.1 member]
    simp only [isSign, Bool.or_eq_true, beq_iff_eq] at mark
    rcases mark with rfl | rfl <;> exact ⟨⟨rfl, by decide, by decide⟩, by decide⟩

theorem retouched_name {name : List Char} (identifier : Identifier name)
    (retouched : Retouched .code (name ++ rest) out) :
    ∃ rest', out = name ++ rest' ∧ Retouched .code rest rest' :=
  retouched_plain (fun c member => plain_of_isSymbol (identifier.symbols c member)) retouched

theorem retouched_spelled {kind : TokenKind} {value : String} (spelled : Spelled kind value text)
    (retouched : Retouched .code (text ++ rest) out) :
    ∃ rest', out = text ++ rest' ∧ Retouched .code rest rest' := by
  cases spelled with
  | number numeral => exact retouched_plain (plain_of_numeral numeral) retouched
  | reference identifier => exact retouched_name identifier retouched
  | register identifier =>
    obtain ⟨behind, rfl, others⟩ :=
      retouched_kept (c := '%') ⟨rfl, by decide, by decide⟩ retouched
    obtain ⟨rest', rfl, last⟩ := retouched_name identifier others
    exact ⟨rest', rfl, last⟩
  | string unescapes =>
    have quote : Kept '"' := ⟨rfl, by decide, by decide⟩
    rw [List.cons_append, List.append_assoc] at retouched
    obtain ⟨behind, rfl, inside⟩ := retouched_kept quote retouched
    obtain ⟨behind, rfl, closing⟩ := retouched_quoted unescapes inside
    obtain ⟨rest', rfl, last⟩ := retouched_kept quote closing
    exact ⟨rest', by simp, last⟩

/-! ## What may stand behind a lexeme -/

theorem head?_of_retouched (retouched : Retouched .code rest out) :
    ∀ c ∈ out.head?, c ∈ rest.head? ∨ isSpace c = true := by
  intro c head
  cases retouched with
  | nil => cases head
  | keep => exact .inl head
  | @comment text behind _ inside ends others =>
    right
    rcases ends with rfl | ⟨lines, rfl⟩
    · rw [retouched_nil others] at head
      cases head
    · obtain ⟨lines', rfl, -⟩ := retouched_kept kept_newline others
      cases head
      rfl
  | comma =>
    cases head
    exact .inr rfl
  | @blanks run run' _ _ filled filled' white white' =>
    obtain ⟨d, run', rfl⟩ := List.exists_cons_of_ne_nil filled'
    cases head
    rw [isSpace, white' c List.mem_cons_self]
    exact .inr rfl

theorem ends_of_retouched {p : Char → Bool} (retouched : Retouched .code rest out)
    (outside : ∀ c, isSpace c = true → p c = false) (ends : Text.Ends p rest) :
    Text.Ends p out := by
  intro c head
  rcases head?_of_retouched retouched c head with same | space
  · exact ends c same
  · exact outside c space

theorem isSymbol_of_isSpace (space : isSpace c = true) : isSymbol c = false := by
  simp only [isSpace, isBlank, Bool.or_eq_true, beq_iff_eq] at space
  rcases space with ((rfl | rfl) | rfl) | rfl <;> rfl

theorem continues_of_isSpace (kind : TokenKind) (space : isSpace c = true) :
    continues kind c = false := by
  have outside := isSymbol_of_isSpace space
  cases kind with
  | number =>
    rw [Bool.eq_false_iff]
    intro digit
    rw [isSymbol_of_isDigit digit] at outside
    cases outside
  | string => rfl
  | label | instruction | reference | register => exact outside

/-- At the end of a line it does not matter whether a comment is there. -/
theorem retouched_line (ends : EndsLine rest) (retouched : Retouched .comment rest out) :
    Retouched .code rest out := by
  rcases ends with rfl | ⟨lines, rfl⟩
  · rw [retouched_nil retouched]
    exact .nil
  · obtain ⟨lines', rfl, others⟩ := retouched_kept kept_newline retouched
    exact .keep (fun _ => rfl) others

theorem endsLine_of_retouched (ends : EndsLine rest) (retouched : Retouched .code rest out) :
    EndsLine out := by
  rcases ends with rfl | ⟨lines, rfl⟩
  · exact .inl (retouched_nil retouched)
  · obtain ⟨lines', rfl, -⟩ := retouched_kept kept_newline retouched
    exact .inr ⟨lines', rfl⟩

end

/-! ## Taking the retouched text apart -/

/-- A text can be taken apart to its end, wherever it stands, and has tokens of the same kinds and
values as these. -/
def CoveredAs (zone : Zone) (text : List Char) (tokens : List Token) : Prop :=
  ∀ position, ∃ found, Covers zone position text found none ∧
    found.map Token.content = tokens.map Token.content

section

variable {zone behind : Zone} {position n : Nat} {chunk text rest : List Char}
  {tokens : List Token}

theorem CoveredAs.skip
    (covers : ∀ position found, Covers behind (position + n) rest found none →
      Covers zone position text found none)
    (others : CoveredAs behind rest tokens) : CoveredAs zone text tokens := by
  intro position
  obtain ⟨found, covered, same⟩ := others (position + n)
  exact ⟨found, covers position found covered, same⟩

theorem CoveredAs.token {kind : TokenKind} {value : String}
    (covers : ∀ position found, Covers behind (position + n) rest found none →
      Covers zone position text (⟨kind, value, position⟩ :: found) none)
    (others : CoveredAs behind rest tokens) :
    CoveredAs zone text (⟨kind, value, position⟩ :: tokens) := by
  intro here
  obtain ⟨found, covered, same⟩ := others (here + n)
  exact ⟨⟨kind, value, here⟩ :: found, covers here found covered, congrArg (_ :: ·) same⟩

/-- Behind a blank a text is taken apart as before. -/
theorem covers_behind_blank {c : Char} (blank : isBlank c = true)
    (covers : Covers zone position (c :: rest) tokens none) :
    Covers zone (position + 1) rest tokens none := by
  have visible : ∀ d others, c :: rest = d :: others → isBlank d = true := by
    intro d others same
    rwa [← (List.cons.inj same).1]
  generalize shape : c :: rest = text at covers visible
  cases covers with
  | blank _ others =>
    cases shape
    exact others
  | line | comment | comma => cases visible _ _ rfl
  | label identifier | mnemonic identifier =>
    obtain ⟨d, letters, rfl, start⟩ := identifier.start
    have outside := (plain_of_isSymbol (isSymbol_of_isStart start)).1.visible
    rw [visible d _ rfl] at outside
    cases outside
  | argument _ spelled =>
    obtain ⟨d, letters, rfl, outside, -⟩ := spelled_start spelled
    rw [visible d _ rfl] at outside
    cases outside
  | done => cases shape

theorem covers_behind_blanks (white : ∀ c ∈ chunk, isBlank c = true)
    (covers : Covers zone position (chunk ++ rest) tokens none) :
    Covers zone (position + chunk.length) rest tokens none := by
  induction chunk generalizing position with
  | nil => exact covers
  | cons c chunk ih =>
    have others := covers_behind_blank (white c List.mem_cons_self) covers
    rw [List.length_cons, Nat.add_comm chunk.length, ← Nat.add_assoc]
    exact ih (fun d member => white d (List.mem_cons_of_mem _ member)) others

/-- Behind an argument there may stand whatever may stand behind a comma. -/
theorem covers_separator {error : Option LexError}
    (covers : Covers .arguments position text tokens error) :
    Covers .separator position text tokens error := by
  generalize source : Zone.arguments = zone at covers
  induction covers with
  | blank blank _ ih => exact .blank blank (ih source)
  | line others => exact .line others
  | comment inside ends others => exact .comment inside ends others
  | argument _ spelled ends others => exact .argument (by decide) spelled ends others
  | done => exact .done
  | failed faulty => exact .failed faulty
  | comma | label | mnemonic => cases source

/-- The end of a line is read in the same way everywhere. -/
theorem covers_line (line : EndsLine text) (covers : Covers .item position text tokens none) :
    Covers zone position text tokens none := by
  have visible : Text.Ends isBlank text := endsLine_ends line rfl
  have other : Text.Ends isStart text := endsLine_ends line rfl
  cases covers with
  | @blank _ _ c _ _ _ blank =>
    rw [visible c rfl] at blank
    cases blank
  | line others => exact .line others
  | comment inside ends others => exact .comment inside ends others
  | label identifier | mnemonic identifier =>
    obtain ⟨c, letters, rfl, start⟩ := identifier.start
    rw [other c rfl] at start
    cases start
  | argument inside => exact absurd rfl inside
  | done => exact .done

end

/-- A comment goes up to the end of its line. -/
theorem eq_behind_comment {text text' rest rest' : List Char} (inside : ∀ c ∈ text, c ≠ '\n')
    (ends : EndsLine rest) (inside' : ∀ c ∈ text', c ≠ '\n') (ends' : EndsLine rest')
    (same : text ++ rest = text' ++ rest') : rest = rest' := by
  have dropped : ∀ text rest : List Char, (∀ c ∈ text, c ≠ '\n') → EndsLine rest →
      (text ++ rest).dropWhile (· != '\n') = rest := fun text rest inside ends =>
    Text.dropWhile_span (fun c member => bne_iff_ne.2 (inside c member)) (endsLine_ends ends rfl)
  rw [← dropped text rest inside ends, same, dropped text' rest' inside' ends']

/-- A retouched text is taken apart as the text was before. -/
theorem coveredAs_retouched {zone : Zone} {position : Nat} {text out : List Char}
    {tokens : List Token} (covers : Covers zone position text tokens none)
    (retouched : Retouched .code text out) : CoveredAs zone out tokens := by
  -- a run of blanks and a comment are several characters, so the induction is on how many are left
  generalize size : text.length = n
  induction n using Nat.strongRecOn generalizing zone position text out tokens with
  | ind n ih =>
    cases covers with
    | @blank _ _ c rest _ _ blank others =>
      cases retouched_cons retouched with
      | keep visible =>
        rw [visible rfl] at blank
        cases blank
      | comment semicolon =>
        subst semicolon
        cases blank
      | comma comma =>
        subst comma
        cases blank
      | @blanks run run' behind behind' split filled white white' others' result =>
        subst split result
        -- of the run that is replaced only the first blank has been read
        have last := covers_behind_blanks (List.forall_mem_cons.1 white).2 others
        have shorter : behind.length < n := by
          rw [← size, List.length_cons, List.length_append]
          omega
        exact (ih _ shorter last others' rfl).skip fun _ _ => covers_blanks white'
    | @line _ _ rest _ _ others =>
      obtain ⟨rest', rfl, others'⟩ := retouched_kept kept_newline retouched
      exact (ih _ (size ▸ Nat.lt_succ_self _) others others' rfl).skip fun _ _ => .line
    | @comment _ _ text rest _ _ inside ends others =>
      have shorter : rest.length < n := by
        rw [← size, List.length_append, List.length_cons]
        omega
      cases retouched_cons retouched with
      | keep _ behind result =>
        obtain ⟨rest', rfl, others'⟩ := retouched_comment inside behind
        have last := retouched_line ends others'
        subst result
        exact (ih _ shorter others last rfl).skip fun _ _ =>
          .comment inside (endsLine_of_retouched ends last)
      | @comment text' behind _ split inside' ends' others' =>
        -- what is deleted and what has been read both go up to the end of the line
        obtain rfl : rest = behind := eq_behind_comment inside ends inside' ends' split
        have line := endsLine_of_retouched ends others'
        exact (ih _ shorter others others' rfl).skip (n := 0) fun _ _ => covers_line line
      | comma comma => cases comma
      | blanks _ _ white => cases white _ List.mem_cons_self
    | @comma _ rest _ _ others =>
      have shorter : rest.length < n := size ▸ Nat.lt_succ_self _
      cases retouched_cons retouched with
      | keep _ others' result =>
        subst result
        exact (ih _ shorter others others' rfl).skip fun _ _ => .comma
      | comma _ others' result =>
        subst result
        -- the next argument may as well stand behind a space
        exact (ih _ shorter others others' rfl).skip fun _ _ covered =>
          .blank rfl (covers_separator covered)
      | comment semicolon => cases semicolon
      | blanks _ _ white => cases white _ List.mem_cons_self
    | @label _ name rest _ _ identifier others =>
      rw [List.append_assoc] at retouched
      obtain ⟨behind, rfl, others'⟩ := retouched_name identifier retouched
      obtain ⟨rest', rfl, last⟩ :=
        retouched_kept (c := ':') ⟨rfl, by decide, by decide⟩ others'
      have shorter : rest.length < n := by
        rw [← size, List.length_append, List.length_append, List.length_singleton]
        omega
      rw [List.append_cons]
      exact (ih _ shorter others last rfl).token fun _ _ => .label identifier
    | @mnemonic _ name rest _ _ identifier ends others =>
      obtain ⟨rest', rfl, last⟩ := retouched_name identifier retouched
      have filled := List.length_pos_iff.2 (name_ne_nil identifier)
      have shorter : rest.length < n := by
        rw [← size, List.length_append]
        omega
      have ends' := ends_of_retouched last (fun _ => isSymbol_of_isSpace) ends
      exact (ih _ shorter others last rfl).token fun _ _ => .mnemonic identifier ends'
    | @argument _ _ kind value lexeme rest _ _ inside spelled ends others =>
      obtain ⟨rest', rfl, last⟩ := retouched_spelled spelled retouched
      have filled : 0 < lexeme.length := by
        obtain ⟨c, letters, rfl, -⟩ := spelled_start spelled
        exact Nat.succ_pos _
      have shorter : rest.length < n := by
        rw [← size, List.length_append]
        omega
      have ends' := ends_of_retouched last (fun _ => continues_of_isSpace kind) ends
      exact (ih _ shorter others last rfl).token fun _ _ => .argument inside spelled ends'
    | done =>
      rw [retouched_nil retouched]
      exact fun _ => ⟨[], .done, rfl⟩

end Lexer

/-- Comments, commas and blanks carry no meaning: a text that is retouched in them is accepted when
the text is, with tokens of the same kinds and values. -/
theorem retouching_keeps_tokens {text retouched : String} {tokens : List Token}
    (lexed : lex text = .ok tokens)
    (retouches : Lexer.Retouched .code text.toList retouched.toList) :
    ∃ found, lex retouched = .ok found ∧ found.map Token.content = tokens.map Token.content := by
  have covers := Lexer.lex_eq_ok_iff.1 lexed
  obtain ⟨found, covered, same⟩ := Lexer.coveredAs_retouched covers retouches 0
  exact ⟨found, Lexer.lex_eq_ok_iff.2 covered, same⟩

/-- The comma in the string stays, the comma behind it becomes a space, and the comment goes. -/
theorem retouching_keeps_tokens_quoted :
    ∃ found, lex "A\t\",\"   1" = .ok found ∧
      found.map Token.content = [(.instruction, "A"), (.string, ","), (.number, "1")] := by
  have lexed : lex "A \",\" , 1;c" =
      .ok [⟨.instruction, "A", 0⟩, ⟨.string, ",", 2⟩, ⟨.number, "1", 8⟩] :=
    Lexer.lex_of_finishWithin 40 (by decide +kernel)
  have blank : ∀ {c c' : Char} {rest rest' : List Char}, Charset.isBlank c = true →
      Charset.isBlank c' = true → Text.Ends Charset.isBlank rest →
      Lexer.Retouched .code rest rest' → Lexer.Retouched .code (c :: rest) (c' :: rest') := by
    intro c c' rest rest' white white' ends others
    exact @Lexer.Retouched.blanks [c] [c'] rest rest' (List.cons_ne_nil _ _)
      (List.cons_ne_nil _ _) (List.forall_mem_singleton.2 white) (List.forall_mem_singleton.2 white')
      ends others
  have inside : ∀ c ∈ ['c'], c ≠ '\n' := List.forall_mem_singleton.2 (by decide)
  have number : Lexer.Retouched .code ['1', ';', 'c'] ['1'] :=
    .keep (fun _ => rfl) (@Lexer.Retouched.comment ['c'] [] [] inside (.inl rfl) .nil)
  have separator : Lexer.Retouched .code [' ', ',', ' ', '1', ';', 'c'] [' ', ' ', ' ', '1'] :=
    blank rfl rfl (Text.ends_cons rfl) (.comma (blank rfl rfl (Text.ends_cons rfl) number))
  have string : Lexer.Retouched .code ['"', ',', '"', ' ', ',', ' ', '1', ';', 'c']
      ['"', ',', '"', ' ', ' ', ' ', '1'] :=
    .keep (fun _ => rfl) (.keep nofun (.keep nofun separator))
  have text : "A \",\" , 1;c".toList = ['A', ' ', '"', ',', '"', ' ', ',', ' ', '1', ';', 'c'] := rfl
  have other : "A\t\",\"   1".toList = ['A', '\t', '"', ',', '"', ' ', ' ', ' ', '1'] := rfl
  have retouches : Lexer.Retouched .code "A \",\" , 1;c".toList "A\t\",\"   1".toList := by
    rw [text, other]
    exact .keep (fun _ => rfl) (blank rfl rfl (Text.ends_cons rfl) string)
  exact retouching_keeps_tokens lexed retouches

end TickMachine
