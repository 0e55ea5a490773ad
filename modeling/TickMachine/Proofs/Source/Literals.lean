import TickMachine.Source.Literal

/-! # The inside of string literals

What the reader of literals finds behind an opening quote: characters that stand for themselves and
escapes, up to the closing quote, to a backslash without an escape behind it, or to the end of the
text. -/

namespace TickMachine.Literal

/-- The texts between the quotes of literals, and the values for which they stand. -/
inductive Unescapes : List Char → List Char → Prop
  | nil : Unescapes [] []
  | plain {c : Char} {body value : List Char} (quote : c ≠ '"') (backslash : c ≠ '\\')
    (others : Unescapes body value) : Unescapes (c :: body) (c :: value)
  | escape {c meant : Char} {body value : List Char} (means : unescape? c = some meant)
    (others : Unescapes body value) : Unescapes ('\\' :: c :: body) (meant :: value)

/-- The texts in front of which a literal does not go on. -/
inductive Stops : List Char → Prop
  | ended : Stops []
  | closed (rest : List Char) : Stops ('"' :: rest)
  | unknown {rest : List Char} (unknown : ∀ c ∈ rest.head?, unescape? c = none) :
    Stops ('\\' :: rest)

/-! ## Reading a literal -/

theorem scan_plain {c : Char} (quote : c ≠ '"') (backslash : c ≠ '\\') (found : List Char)
    (used : Nat) (rest : List Char) :
    scan found used (c :: rest) = scan (c :: found) (used + 1) rest :=
  scan.eq_5 found used c rest quote (fun same _ => backslash same) fun _ _ same _ => backslash same

/-- The reader passes over characters and escapes and takes down their values. -/
theorem scan_unescapes {body value : List Char} (unescapes : Unescapes body value)
    (found : List Char) (used : Nat) (rest : List Char) :
    scan found used (body ++ rest) = scan (value.reverse ++ found) (used + body.length) rest := by
  induction unescapes generalizing found used with
  | nil => rfl
  | plain quote backslash others ih =>
    rw [List.cons_append, scan_plain quote backslash, ih, List.reverse_cons, List.append_assoc,
      List.length_cons, Nat.add_assoc, Nat.add_comm 1]
    rfl
  | escape means others ih =>
    rw [List.cons_append, List.cons_append, scan, means]
    simp only
    rw [ih, List.reverse_cons, List.append_assoc, List.length_cons, List.length_cons,
      Nat.add_assoc, Nat.add_comm 2]
    rfl

theorem scan_closed {body value : List Char} (unescapes : Unescapes body value) (used : Nat)
    (rest : List Char) :
    scan [] used (body ++ '"' :: rest) = .closed value (used + body.length + 1) := by
  rw [scan_unescapes unescapes, scan, List.append_nil, List.reverse_reverse]

theorem scan_unterminated {body value : List Char} (unescapes : Unescapes body value)
    (used : Nat) : scan [] used body = .faulty .unterminatedString (used + body.length) := by
  have read := scan_unescapes unescapes [] used []
  rwa [List.append_nil, scan] at read

theorem scan_escape {body value rest : List Char} (unescapes : Unescapes body value)
    (unknown : ∀ c ∈ rest.head?, unescape? c = none) (used : Nat) :
    scan [] used (body ++ '\\' :: rest) = .faulty .escape (used + body.length + 1) := by
  rw [scan_unescapes unescapes]
  cases rest with
  | nil => rw [scan]
  | cons c rest => rw [scan, unknown c rfl]

/-- Every text starts with characters and escapes, up to where a literal does not go on. -/
theorem exists_unescapes (text : List Char) :
    ∃ body value rest, text = body ++ rest ∧ Unescapes body value ∧ Stops rest := by
  suffices split : ∀ (found : List Char) (used : Nat), ∃ body value rest, text = body ++ rest ∧
      Unescapes body value ∧ Stops rest from split [] 0
  intro found used
  fun_induction scan found used text with
  | case1 => exact ⟨[], [], [], rfl, .nil, .ended⟩
  | case2 found used rest => exact ⟨[], [], '"' :: rest, rfl, .nil, .closed rest⟩
  | case3 => exact ⟨[], [], ['\\'], rfl, .nil, .unknown fun _ head => by cases head⟩
  | case4 found used c text meant means ih =>
    obtain ⟨body, value, rest, rfl, unescapes, stops⟩ := ih
    exact ⟨'\\' :: c :: body, meant :: value, rest, rfl, .escape means unescapes, stops⟩
  | case5 found used c rest means =>
    refine ⟨[], [], '\\' :: c :: rest, rfl, .nil, .unknown ?_⟩
    intro d head
    cases head
    exact means
  | case6 found used c text quote single escaped ih =>
    obtain ⟨body, value, rest, rfl, unescapes, stops⟩ := ih
    have backslash : c ≠ '\\' := by
      intro same
      cases behind : body ++ rest with
      | nil => exact single same behind
      | cons d others => exact escaped d others same behind
    exact ⟨c :: body, c :: value, rest, rfl, .plain quote backslash unescapes, stops⟩

end TickMachine.Literal
