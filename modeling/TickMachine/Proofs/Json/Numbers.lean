import TickMachine.Json.NumberReader
import TickMachine.Proofs.Text.Decimal
import TickMachine.Proofs.Text.Spans

/-! # JSON integers read back

An integer that fits in 64 bits is read as the number that its decimal digits give, up to the first
character that cannot continue a number. -/

namespace TickMachine.Json

open Decimal (digits)

/-- The characters that can continue a number. -/
def continuesNumber (c : Char) : Bool := c.isDigit || c == '.' || c == 'e' || c == 'E'

theorem endsDigits {rest : List Char} (ends : Text.Ends continuesNumber rest) :
    Text.Ends Char.isDigit rest := by
  intro c head
  have := ends c head
  simp only [continuesNumber, Bool.or_eq_false_iff] at this
  exact this.1.1.1

theorem fraction_of_ends (care : Care) {rest : List Char} (ends : Text.Ends continuesNumber rest) :
    fraction care rest = .ok (none, rest) := by
  unfold fraction
  split
  · have := ends '.' rfl
    simp [continuesNumber] at this
  · rfl

theorem exponent_of_ends (care : Care) {rest : List Char} (ends : Text.Ends continuesNumber rest) :
    exponent care rest = .ok (none, rest) := by
  cases rest with
  | nil => rfl
  | cons c rest =>
    have := ends c rfl
    simp only [continuesNumber, Bool.or_eq_false_iff, beq_eq_false_iff_ne] at this
    simp [exponent, this]

/-- Digits are gathered to the last one when the number stays below 64 bits. -/
theorem gatherDigits_of_lt {significand : Nat} {text : List Char}
    (small : Nat.ofDigitChars 10 text significand < UInt64.size) :
    gatherDigits significand text = (Nat.ofDigitChars 10 text significand, []) := by
  induction text generalizing significand with
  | nil => simp [gatherDigits]
  | cons digit text ih =>
    rw [Nat.ofDigitChars_cons] at small ⊢
    have grows : 10 * significand + (digit.toNat - '0'.toNat) ≤
        Nat.ofDigitChars 10 text (10 * significand + (digit.toNat - '0'.toNat)) := by
      rw [Nat.ofDigitChars_eq_ofDigitChars_zero]
      exact Nat.le_trans (Nat.le_mul_of_pos_left _ (Nat.pow_pos (by decide))) (Nat.le_add_right _ _)
    rw [gatherDigits]
    simp only [Nat.lt_of_le_of_lt grows small, if_true]
    exact ih small

/-- The number of a sign and of digits whose value stays below 64 bits. -/
theorem wholeNumber_of_lt (care : Care) (negative : Bool) {whole : List Char} {n : Nat}
    (value : Nat.ofDigitChars 10 whole 0 = n) (small : n < UInt64.size) :
    wholeNumber care negative whole =
      .ok (if negative then if n = 0 then .decimal true 0 0 else .integer (-n)
        else .integer n) := by
  rw [wholeNumber, gatherDigits_of_lt (by rwa [value]), value]
  cases negative
  · rfl
  · simp only [if_true]
    split <;> rfl

/-- Digits that are gathered to the last one give a number below 64 bits. -/
theorem lt_of_gatherDigits {significand gathered : Nat} {text : List Char}
    (all : gatherDigits significand text = (gathered, [])) (small : significand < UInt64.size) :
    Nat.ofDigitChars 10 text significand < UInt64.size := by
  induction text generalizing significand with
  | nil => simpa using small
  | cons digit text ih =>
    rw [gatherDigits] at all
    split at all
    · next fits =>
      rw [Nat.ofDigitChars_cons]
      exact ih all fits
    · cases all

/-- Digits whose value has more than 64 bits give no integer. -/
theorem wholeNumber_of_le (care : Care) (negative : Bool) {whole : List Char} {n : Nat}
    (value : Nat.ofDigitChars 10 whole 0 = n) (large : UInt64.size ≤ n) :
    ∃ significand exponent, wholeNumber care negative whole =
      decimal care negative significand exponent := by
  rw [wholeNumber]
  split
  · next all =>
    have small := lt_of_gatherDigits all (by decide)
    omega
  · next significand dropped _ _ => exact ⟨significand, dropped.length, rfl⟩

/-- Behind its sign, a run of digits without a superfluous zero in front is a whole number, whatever
its size. -/
theorem magnitude_whole (care : Care) (negative : Bool) {whole rest : List Char}
    (inside : ∀ c ∈ whole, c.isDigit = true) (present : whole ≠ [])
    (plain : ¬(whole.head? = some '0' ∧ 1 < whole.length)) (ends : Text.Ends continuesNumber rest) :
    magnitude care negative (whole ++ rest) =
      (wholeNumber care negative whole).map fun found => (found, rest) := by
  have front : (whole ++ rest).takeWhile Char.isDigit = whole :=
    Text.takeWhile_span inside (endsDigits ends)
  have behind : (whole ++ rest).dropWhile Char.isDigit = rest :=
    Text.dropWhile_span inside (endsDigits ends)
  rw [magnitude]
  simp only [front, behind, present, plain, if_false, fraction_of_ends care ends,
    exponent_of_ends care ends, bind, Except.bind]
  cases wholeNumber care negative whole <;> rfl

theorem plain_digits (n : Nat) : ¬((digits n).head? = some '0' ∧ 1 < (digits n).length) := by
  rintro ⟨zero, long⟩
  rw [Decimal.head?_digits zero] at long
  exact absurd long (by decide)

/-- A number that starts with a digit has no sign. -/
theorem number_of_digit (care : Care) {c : Char} (digit : c.isDigit = true) (text : List Char) :
    number care (c :: text) = magnitude care false (c :: text) := by
  unfold number
  split
  · next minus =>
    obtain rfl : c = '-' := (List.cons.inj minus).1
    cases digit
  · rfl

/-- An integer is read as the number of its sign and its digits, whatever its size. -/
theorem number_ofInt (care : Care) (value : Int) {rest : List Char}
    (ends : Text.Ends continuesNumber rest) :
    number care ((Decimal.ofInt value).toList ++ rest) =
      (wholeNumber care (decide (value < 0)) (digits value.natAbs)).map fun found =>
        (found, rest) := by
  have unsigned (n : Nat) : number care (digits n ++ rest) =
      (wholeNumber care false (digits n)).map fun found => (found, rest) := by
    have read := magnitude_whole care false (fun _ => Decimal.isDigit_of_mem)
      (Decimal.digits_ne_nil n) (plain_digits n) ends
    obtain ⟨c, behind, parts, digit⟩ := Decimal.exists_digits_eq_cons n
    rw [← read, parts, List.cons_append, number_of_digit care digit]
  rcases Int.eq_nat_or_neg value with ⟨n, rfl | rfl⟩
  · have sign : decide ((n : Int) < 0) = false := decide_eq_false (by omega)
    rw [Decimal.toList_ofInt_ofNat, unsigned n, sign, Int.natAbs_natCast]
  · cases n with
    | zero => exact unsigned 0
    | succ n =>
      have sign : decide (-((n + 1 : Nat) : Int) < 0) = true := decide_eq_true (by omega)
      rw [Decimal.toList_ofInt_neg _ (Nat.succ_pos n), sign, Int.natAbs_neg, Int.natAbs_natCast,
        List.cons_append, number]
      exact magnitude_whole care true (fun _ => Decimal.isDigit_of_mem)
        (Decimal.digits_ne_nil _) (plain_digits _) ends

theorem wholeNumber_digits (care : Care) {value : Int} (small : value.natAbs < UInt64.size) :
    wholeNumber care (decide (value < 0)) (digits value.natAbs) = .ok (.integer value) := by
  rw [wholeNumber_of_lt care _ (Decimal.ofDigitChars_digits _) small]
  by_cases negative : value < 0
  · have present : value.natAbs ≠ 0 := by omega
    have same : -(value.natAbs : Int) = value := by omega
    simp only [negative, present, same, decide_true, if_true, if_false]
  · have same : (value.natAbs : Int) = value := by omega
    simp only [negative, same, decide_false, Bool.false_eq_true, if_false]

theorem number_integer (care : Care) {value : Int} (small : value.natAbs < UInt64.size)
    {rest : List Char} (ends : Text.Ends continuesNumber rest) :
    number care ((Decimal.ofInt value).toList ++ rest) = .ok (.integer value, rest) := by
  rw [number_ofInt care value ends, wholeNumber_digits care small]
  rfl

end TickMachine.Json
