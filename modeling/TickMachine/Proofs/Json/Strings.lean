import TickMachine.Json.Printer
import TickMachine.Json.StringReader

/-! # JSON strings read back

A character can stand in a JSON string as itself or as an escape. Whichever spelling is chosen for
each character of a string, the reader finds the string again; the spelling that the printer chooses
is one of them. -/

namespace TickMachine.Json

/-- The texts that spell a character inside a string. -/
inductive SpelledChar : Char → List Char → Prop
  | plain {c : Char} (printable : 0x20 ≤ c.toNat) (quote : c ≠ '"') (backslash : c ≠ '\\') :
    SpelledChar c [c]
  | short {c letter : Char} (meant : shortEscape? letter = some c) : SpelledChar c ['\\', letter]
  | unit {c h₁ h₂ h₃ h₄ : Char} {d₁ d₂ d₃ d₄ : Nat} (first : hexValue? h₁ = some d₁)
    (second : hexValue? h₂ = some d₂) (third : hexValue? h₃ = some d₃)
    (fourth : hexValue? h₄ = some d₄)
    (value : ((d₁ * 16 + d₂) * 16 + d₃) * 16 + d₄ = c.toNat) :
    SpelledChar c ['\\', 'u', h₁, h₂, h₃, h₄]

/-- The texts that spell a string between its quotes. -/
inductive SpelledString : List Char → List Char → Prop
  | nil : SpelledString [] []
  | cons {c : Char} {text : List Char} {cs texts : List Char} (first : SpelledChar c text)
    (others : SpelledString cs texts) : SpelledString (c :: cs) (text ++ texts)

theorem hexUnit_of_values {h₁ h₂ h₃ h₄ : Char} {d₁ d₂ d₃ d₄ : Nat} (rest : List Char)
    (first : hexValue? h₁ = some d₁) (second : hexValue? h₂ = some d₂)
    (third : hexValue? h₃ = some d₃) (fourth : hexValue? h₄ = some d₄) :
    hexUnit (h₁ :: h₂ :: h₃ :: h₄ :: rest) =
      .ok (((d₁ * 16 + d₂) * 16 + d₃) * 16 + d₄, rest) := by
  simp only [hexUnit, first, second, third, fourth]

theorem codedChar_of_hexUnit (care : Care) {c : Char} {text rest : List Char}
    (unit : hexUnit text = .ok (c.toNat, rest)) : codedChar care text = .ok (c, rest) := by
  have scalar : c.toNat < 0xd800 ∨ 0xdfff < c.toNat := by
    rcases c.valid with below | above
    · exact .inl below
    · exact .inr above.1
  have low : isLowSurrogate c.toNat = false := by
    simp only [isLowSurrogate, decide_eq_false_iff_not]
    omega
  have high : isHighSurrogate c.toNat = false := by
    simp only [isHighSurrogate, decide_eq_false_iff_not]
    omega
  simp only [codedChar, unit, low, high, Char.ofNat_toNat, Bool.false_eq_true, if_false, ite_self]

theorem stringBody_coded {care : Care} {found : List Char} {c : Char} {text rest : List Char}
    (read : codedChar care text = .ok (c, rest)) :
    stringBody care found ('\\' :: 'u' :: text) = stringBody care (c :: found) rest := by
  rw [stringBody]
  split
  · next coded =>
    rw [read] at coded
    cases coded
  · next coded =>
    rw [read] at coded
    cases coded
    rfl

theorem stringBody_refused {care : Care} (found : List Char) {text : List Char} {failure : Failure}
    (refused : codedChar care text = .error failure) :
    stringBody care found ('\\' :: 'u' :: text) = .error failure := by
  rw [stringBody]
  split
  · next coded =>
    rw [refused] at coded
    cases coded
    rfl
  · next coded =>
    rw [refused] at coded
    cases coded

/-- A spelled character is read as the character, whatever stands behind it. -/
theorem stringBody_spelledChar (care : Care) {found : List Char} {c : Char} {text rest : List Char}
    (spelled : SpelledChar c text) :
    stringBody care found (text ++ rest) = stringBody care (c :: found) rest := by
  cases spelled with
  | plain printable quote backslash =>
    rw [List.singleton_append, stringBody, if_neg (Nat.not_lt.2 printable)]
    · exact quote
    · exact fun same _ => backslash same
    · exact fun _ same _ => backslash same
    · exact fun _ _ same _ => backslash same
  | short meant =>
    simp only [List.cons_append, List.nil_append]
    rw [stringBody, meant]
    rintro rfl
    cases meant
  | unit first second third fourth value =>
    have unit := hexUnit_of_values rest first second third fourth
    rw [value] at unit
    exact stringBody_coded (codedChar_of_hexUnit care unit)

theorem stringBody_spelled (care : Care) {found cs text : List Char} (rest : List Char)
    (spelled : SpelledString cs text) :
    stringBody care found (text ++ '"' :: rest) =
      .ok (String.ofList (found.reverse ++ cs), rest) := by
  induction spelled generalizing found with
  | nil => simp [stringBody]
  | cons first others ih =>
    rw [List.append_assoc, stringBody_spelledChar care first, ih]
    simp

/-! ## The printer -/

theorem hexValue?_digitChar :
    ∀ digit : Fin 16, hexValue? (Nat.digitChar digit) = some digit.val := by
  decide

theorem spelled_escapeChar (c : Char) : SpelledChar c (escapeChar c).toList := by
  unfold escapeChar
  split
  · subst c
    exact .short rfl
  split
  · subst c
    exact .short rfl
  split
  · subst c
    exact .short rfl
  split
  · subst c
    exact .short rfl
  split
  · subst c
    exact .short rfl
  split
  · subst c
    exact .short rfl
  split
  · subst c
    exact .short rfl
  split
  · next control =>
    have digits : ∀ n : Fin 32, ("\\u" ++ Text.padLeft 4 '0' (Text.hexDigits n.val)).toList =
        ['\\', 'u', Nat.digitChar 0, Nat.digitChar 0, Nat.digitChar (n.val / 16),
          Nat.digitChar (n.val % 16)] := by decide +kernel
    rw [digits ⟨c.toNat, control⟩]
    exact .unit (hexValue?_digitChar 0) (hexValue?_digitChar 0)
      (hexValue?_digitChar ⟨c.toNat / 16, by omega⟩) (hexValue?_digitChar ⟨c.toNat % 16, by omega⟩)
      (by simp only [Fin.val_zero]; omega)
  · next quote backslash _ _ _ _ _ printable =>
    rw [String.toList_singleton]
    exact .plain (Nat.not_lt.1 printable) quote backslash

theorem spelled_escaped (cs : List Char) :
    SpelledString cs (cs.flatMap fun c => (escapeChar c).toList) := by
  induction cs with
  | nil => exact .nil
  | cons c cs ih => exact .cons (spelled_escapeChar c) ih

end TickMachine.Json
