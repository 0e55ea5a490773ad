import TickMachine.Proofs.Source.Coverage

/-! # Where tokens and errors stand

The place that a token records is the place of its lexeme, lexemes come one behind the other, and
the place of an error is the place of the character at fault, which its message shows. -/

namespace TickMachine

namespace Lexer

/-- The texts that stand for a token of a kind and a value. -/
inductive Lexeme : TokenKind → String → List Char → Prop
  | label {name : List Char} (identifier : Identifier name) :
    Lexeme .label (String.ofList name) (name ++ [':'])
  | mnemonic {name : List Char} (identifier : Identifier name) :
    Lexeme .instruction (String.ofList name) name
  | argument {kind : TokenKind} {value : String} {text : List Char}
    (spelled : Spelled kind value text) : Lexeme kind value text

/-- A token and the text that stands for it. -/
structure Occurrence where
  token : Token
  text : List Char

namespace Occurrence

/-- The place behind the lexeme. -/
def stop (occurrence : Occurrence) : Nat := occurrence.token.position + occurrence.text.length

end Occurrence

/-- The lexemes of tokens stand in a text at the places of the tokens, one behind the other. -/
structure Located (text : List Char) (occurrences : List Occurrence) : Prop where
  lexeme : ∀ occurrence ∈ occurrences,
    Lexeme occurrence.token.kind occurrence.token.value occurrence.text
  literal : ∀ occurrence ∈ occurrences, occurrence.text <+: text.drop occurrence.token.position
  apart : occurrences.Pairwise fun first second => first.stop ≤ second.token.position

/-- An error at the place of the character at fault, or at the end of the text. What the lexer has
begun to read stands in front of it. -/
structure Faults (text : List Char) (error : LexError) : Prop where
  inside : error.position ≤ text.length
  found : error.found = text[error.position]?
  faulty : ∃ begun, Faulty error.fault begun (text.drop error.position) ∧
    begun <:+ text.take error.position
  message : error.message = error.fault.text ++ ": " ++ (match text[error.position]? with
      | some c => Text.shownChar c
      | none => "EOF") ++ " (position " ++ Decimal.ofNat error.position ++ ")"
  ended : error.symbol = "EOF" ↔ error.position = text.length

/-- The tokens of a text account for all of its characters, up to the place of an error. -/
structure Accounted (text : List Char) (result : Tokens) : Prop where
  covered : Covers .item 0 text result.tokens result.error
  increasing : result.tokens.Pairwise fun first second => first.position < second.position
  located : ∃ occurrences, occurrences.map Occurrence.token = result.tokens ∧
    Located text occurrences ∧ ∀ error, result.error = some error →
      ∀ occurrence ∈ occurrences, occurrence.stop ≤ error.position
  faults : ∀ error, result.error = some error → Faults text error

/-! ## Errors -/

theorem shownChar_ne_end (c : Char) : Text.shownChar c ≠ "EOF" := by
  intro same
  have quoted := congrArg (fun text : String => text.toList.head?) same
  simp [Text.shownChar] at quoted

/-- The place at which the lexer stops, seen from a text in front of it. -/
def StopsIn (position : Nat) (text : List Char) (error : LexError) : Prop :=
  ∃ front rest begun, text = front ++ rest ∧ error.position = position + front.length ∧
    error.found = rest.head? ∧ Faulty error.fault begun rest ∧ begun <:+ front

theorem StopsIn.behind {position : Nat} {rest : List Char} {error : LexError} (chunk : List Char)
    (stops : StopsIn (position + chunk.length) rest error) :
    StopsIn position (chunk ++ rest) error := by
  obtain ⟨front, behind, begun, rfl, place, found, faulty, suffix⟩ := stops
  refine ⟨chunk ++ front, behind, begun, (List.append_assoc _ _ _).symm, ?_, found, faulty,
    suffix.trans (List.suffix_append chunk front)⟩
  rw [place, List.length_append, Nat.add_assoc]

theorem stopsIn_of_covers {zone : Zone} {position : Nat} {text : List Char} {tokens : List Token}
    {error : Option LexError} (covers : Covers zone position text tokens error) {fault : LexError}
    (failed : error = some fault) : StopsIn position text fault := by
  induction covers with
  | @blank _ _ c _ _ _ _ _ ih => exact (ih failed).behind [c]
  | line _ ih => exact (ih failed).behind ['\n']
  | @comment _ _ text _ _ _ _ _ _ ih => exact (ih failed).behind (';' :: text)
  | comma _ ih => exact (ih failed).behind [',']
  | label _ _ ih | mnemonic _ _ _ ih | argument _ _ _ _ ih => exact (ih failed).behind _
  | done => cases failed
  | @failed _ _ _ begun rest faulty =>
    cases failed
    exact ⟨begun, rest, begun, rfl, rfl, rfl, faulty, List.suffix_refl begun⟩

theorem faults_of_stopsIn {text : List Char} {error : LexError} (stops : StopsIn 0 text error) :
    Faults text error := by
  obtain ⟨front, rest, begun, rfl, place, found, faulty, suffix⟩ := stops
  rw [Nat.zero_add] at place
  have inside : error.position ≤ (front ++ rest).length := by
    rw [place, List.length_append]
    exact Nat.le_add_right _ _
  have here : (front ++ rest)[error.position]? = rest.head? := by
    rw [place, List.getElem?_append_right (Nat.le_refl _), Nat.sub_self, List.head?_eq_getElem?]
  have shown : error.symbol = (match (front ++ rest)[error.position]? with
      | some c => Text.shownChar c
      | none => "EOF") := by
    rw [here, ← found]
    rfl
  refine ⟨inside, by rw [found, here], ⟨begun, ?_, ?_⟩, ?_, ?_⟩
  · rwa [place, List.drop_left]
  · rwa [place, List.take_left]
  · rw [← shown]
    rfl
  · rw [LexError.symbol, found]
    cases rest with
    | nil => simp [place]
    | cons c rest =>
      have quoted := shownChar_ne_end c
      simp [place, quoted]

/-! ## Tokens -/

theorem Lexeme.ne_nil {kind : TokenKind} {value : String} {text : List Char}
    (lexeme : Lexeme kind value text) : text ≠ [] := by
  cases lexeme with
  | label identifier => exact List.append_ne_nil_of_right_ne_nil _ (List.cons_ne_nil _ _)
  | mnemonic identifier => exact name_ne_nil identifier
  | argument spelled =>
    obtain ⟨c, rest, rfl, -⟩ := spelled_start spelled
    exact List.cons_ne_nil c rest

/-- The lexemes of tokens in a text, from a place on. -/
structure Locates (text : List Char) (position : Nat) (error : Option LexError)
    (occurrences : List Occurrence) : Prop where
  located : Located text occurrences
  behind : ∀ occurrence ∈ occurrences, position ≤ occurrence.token.position
  before : ∀ fault, error = some fault → ∀ occurrence ∈ occurrences,
    occurrence.stop ≤ fault.position

section

variable {whole : List Char} {position : Nat} {error : Option LexError}
  {occurrences : List Occurrence}

theorem Locates.earlier {n : Nat} (locates : Locates whole (position + n) error occurrences) :
    Locates whole position error occurrences :=
  ⟨locates.located, fun occurrence member =>
    Nat.le_of_add_right_le (locates.behind occurrence member), locates.before⟩

theorem Locates.add {kind : TokenKind} {value : String} {lexeme : List Char}
    (locates : Locates whole (position + lexeme.length) error occurrences)
    (stands : Lexeme kind value lexeme) (literal : lexeme <+: whole.drop position)
    (before : ∀ fault, error = some fault → position + lexeme.length ≤ fault.position) :
    Locates whole position error (⟨⟨kind, value, position⟩, lexeme⟩ :: occurrences) := by
  obtain ⟨⟨lexemes, literals, apart⟩, behind, befores⟩ := locates
  refine ⟨⟨?_, ?_, List.pairwise_cons.2 ⟨behind, apart⟩⟩, ?_, ?_⟩
  · exact List.forall_mem_cons.2 ⟨stands, lexemes⟩
  · exact List.forall_mem_cons.2 ⟨literal, literals⟩
  · exact List.forall_mem_cons.2 ⟨Nat.le_refl _, fun occurrence member =>
      Nat.le_of_add_right_le (behind occurrence member)⟩
  · exact fun fault failed => List.forall_mem_cons.2 ⟨before fault failed, befores fault failed⟩

end

/-- The tokens of a text stand at their places in every text that ends in it and has the right
length in front of it. -/
def LocatesIn (position : Nat) (text : List Char) (tokens : List Token)
    (error : Option LexError) : Prop :=
  ∀ ahead : List Char, ahead.length = position → ∃ occurrences,
    occurrences.map Occurrence.token = tokens ∧ Locates (ahead ++ text) position error occurrences

section

variable {position : Nat} {rest : List Char} {tokens : List Token} {error : Option LexError}

theorem LocatesIn.behind (chunk : List Char)
    (others : LocatesIn (position + chunk.length) rest tokens error) :
    LocatesIn position (chunk ++ rest) tokens error := by
  intro ahead place
  obtain ⟨occurrences, same, locates⟩ :=
    others (ahead ++ chunk) (by rw [List.length_append, place])
  rw [List.append_assoc] at locates
  exact ⟨occurrences, same, locates.earlier⟩

theorem LocatesIn.lexeme {zone : Zone} {kind : TokenKind} {value : String} {lexeme : List Char}
    (others : LocatesIn (position + lexeme.length) rest tokens error)
    (stands : Lexeme kind value lexeme)
    (covers : Covers zone (position + lexeme.length) rest tokens error) :
    LocatesIn position (lexeme ++ rest) (⟨kind, value, position⟩ :: tokens) error := by
  intro ahead place
  obtain ⟨occurrences, same, locates⟩ :=
    others (ahead ++ lexeme) (by rw [List.length_append, place])
  rw [List.append_assoc] at locates
  refine ⟨⟨⟨kind, value, position⟩, lexeme⟩ :: occurrences, by rw [List.map_cons, same],
    locates.add stands ?_ ?_⟩
  · rw [← place, List.drop_left]
    exact List.prefix_append lexeme rest
  · intro fault failed
    obtain ⟨front, -, -, -, stop, -⟩ := stopsIn_of_covers covers failed
    rw [stop]
    exact Nat.le_add_right _ _

end

/-- The tokens that a text is taken apart into stand at their places in it. -/
theorem locatesIn_of_covers {zone : Zone} {position : Nat} {text : List Char} {tokens : List Token}
    {error : Option LexError} (covers : Covers zone position text tokens error) :
    LocatesIn position text tokens error := by
  have nothing : ∀ (whole : List Char) (position : Nat) (error : Option LexError),
      Locates whole position error [] := fun _ _ _ =>
    ⟨⟨nofun, nofun, .nil⟩, nofun, fun _ _ => nofun⟩
  induction covers with
  | @blank _ _ c _ _ _ _ _ ih => exact ih.behind [c]
  | line _ ih => exact ih.behind ['\n']
  | @comment _ _ text _ _ _ _ _ _ ih => exact ih.behind (';' :: text)
  | comma _ ih => exact ih.behind [',']
  | label identifier others ih => exact ih.lexeme (.label identifier) others
  | mnemonic identifier _ others ih => exact ih.lexeme (.mnemonic identifier) others
  | argument _ spelled _ others ih => exact ih.lexeme (.argument spelled) others
  | done | failed => exact fun _ _ => ⟨[], rfl, nothing _ _ _⟩

end Lexer

/-- The tokens of every text account for its characters. -/
theorem tokens_account (text : String) : Lexer.Accounted text.toList (tokenize text) := by
  have covered := Lexer.covers_tokenize text
  obtain ⟨occurrences, same, locates⟩ := Lexer.locatesIn_of_covers covered [] rfl
  refine ⟨covered, ?_, ⟨occurrences, same, locates.located, locates.before⟩, ?_⟩
  · rw [← same, List.pairwise_map]
    refine locates.located.apart.imp_of_mem fun {first second} member _ apart => ?_
    have filled := List.length_pos_iff.2 (locates.located.lexeme first member).ne_nil
    exact Nat.lt_of_lt_of_le (Nat.lt_add_of_pos_right filled) apart
  · exact fun error failed => Lexer.faults_of_stopsIn (Lexer.stopsIn_of_covers covered failed)

end TickMachine
