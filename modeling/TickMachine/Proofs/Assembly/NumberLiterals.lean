import Mathlib.Data.Nat.Digits.Defs
import TickMachine.Proofs.Assembly.WrittenWords
import TickMachine.Proofs.Source.Printing

/-! # Number literals

The lexer makes a number token of digits with at most one sign in front, however many digits there
are. The number that they write is the sum of the digits, each of them multiplied with the power of
ten of its place, and the assembler takes the machine value that is equal to it or refuses the text.
Reading digit by digit comes to the same, since a number that has left the range of the machine
values does not come back with further digits. -/

namespace TickMachine

open Lexer (Numeral)

namespace Decimal

/-! ## The number that digits write -/

/-- The number that digits write in positional notation. -/
def magnitude (digits : List Char) : Nat :=
  Nat.ofDigits 10 (digits.map fun c => c.toNat - '0'.toNat).reverse

/-- A number that has a minus sign in front or has none. -/
def signed (negative : Bool) (n : Nat) : Int := if negative then -n else n

/-- The number that digits write with a sign in front. -/
def valueOf (sign digits : List Char) : Int := signed (sign == ['-']) (magnitude digits)

theorem ofDigitChars_eq_magnitude (digits : List Char) (front : Nat) :
    Nat.ofDigitChars 10 digits front = 10 ^ digits.length * front + magnitude digits := by
  induction digits generalizing front with
  | nil => simp [magnitude]
  | cons c rest ih =>
    rw [Nat.ofDigitChars_cons, ih, magnitude, magnitude, List.map_cons, Nat.ofDigits_reverse_cons,
      List.length_map, List.length_cons, Nat.pow_succ]
    ring

theorem readNat?_numeral {sign digits : List Char} (numeral : Numeral sign digits) :
    readNat? digits = some (magnitude digits) := by
  have decimal := List.all_eq_true.2 numeral.decimal
  rw [readNat?, if_pos ⟨numeral.filled, decimal⟩, ofDigitChars_eq_magnitude, Nat.mul_zero,
    Nat.zero_add]

/-- A numeral is read as the number that it writes. -/
theorem readInt?_numeral {sign digits : List Char} (numeral : Numeral sign digits) :
    readInt? (sign ++ digits) = some (valueOf sign digits) := by
  have read := readNat?_numeral numeral
  rcases numeral.marked with rfl | ⟨c, rfl, mark⟩
  · obtain ⟨c, rest, rfl⟩ := List.exists_cons_of_ne_nil numeral.filled
    have digit := numeral.decimal c List.mem_cons_self
    rw [List.nil_append, readInt?_of_isDigit digit, read]
    rfl
  · rcases Bool.or_eq_true_iff.1 mark with plus | minus
    · rw [beq_iff_eq.1 plus, List.singleton_append, readInt?, read]
      rfl
    · rw [beq_iff_eq.1 minus, List.singleton_append, readInt?, read]
      rfl

/-! ## Digit by digit -/

/-- A machine value with further digits behind it, where no multiplication with ten and no digit
that is added or subtracted leads out of the range. -/
def gather (negative : Bool) (value : Int32) : List Char → Option Int32
  | [] => some value
  | c :: rest =>
    (toInt32? (value.toInt * 10)).bind fun shifted =>
      (toInt32? (shifted.toInt + signed negative (c.toNat - '0'.toNat))).bind fun next =>
        gather negative next rest

theorem signed_true (n : Nat) : signed true n = -n := rfl

theorem signed_false (n : Nat) : signed false n = n := rfl

theorem signed_mul (negative : Bool) (m n : Nat) :
    signed negative m * n = signed negative (n * m) := by
  cases negative
  · rw [signed_false, signed_false, Int.natCast_mul, Int.mul_comm]
  · rw [signed_true, signed_true, Int.natCast_mul, Int.neg_mul, Int.mul_comm]

theorem signed_add (negative : Bool) (m n : Nat) :
    signed negative m + signed negative n = signed negative (m + n) := by
  cases negative
  · rw [signed_false, signed_false, signed_false, Int.natCast_add]
  · rw [signed_true, signed_true, signed_true, Int.natCast_add, Int.neg_add]

/-- Greater numbers of the same sign are out of range, too. -/
theorem toInt32?_signed_eq_none {negative : Bool} {m n : Nat} (le : m ≤ n)
    (outside : toInt32? (signed negative m) = none) : toInt32? (signed negative n) = none := by
  rw [toInt32?_eq_none_iff] at outside ⊢
  cases negative
  · rw [signed_false] at outside ⊢
    omega
  · rw [signed_true] at outside ⊢
    omega

theorem le_ofDigitChars (digits : List Char) (front : Nat) :
    front ≤ Nat.ofDigitChars 10 digits front := by
  rw [ofDigitChars_eq_magnitude]
  exact Nat.le_add_right_of_le (Nat.le_mul_of_pos_left front (Nat.pow_pos (by decide)))

/-- The digits behind a number give the whole number, or leave the range where it does. -/
theorem gather_eq {negative : Bool} {value : Int32} {front : Nat} (digits : List Char)
    (same : value.toInt = signed negative front) :
    gather negative value digits =
      toInt32? (signed negative (Nat.ofDigitChars 10 digits front)) := by
  induction digits generalizing value front with
  | nil => exact (toInt32?_eq_some_iff.2 same).symm
  | cons c rest ih =>
    have grown := le_ofDigitChars rest (10 * front + (c.toNat - '0'.toNat))
    have product : value.toInt * 10 = signed negative (10 * front) := by
      rw [same]
      exact signed_mul negative front 10
    rw [gather, Nat.ofDigitChars_cons, product]
    cases shift : toInt32? (signed negative (10 * front)) with
    | none => exact (toInt32?_signed_eq_none (Nat.le_of_add_right_le grown) shift).symm
    | some shifted =>
      rw [Option.bind_some, toInt32?_eq_some_iff.1 shift, signed_add]
      cases add : toInt32? (signed negative (10 * front + (c.toNat - '0'.toNat))) with
      | none => exact (toInt32?_signed_eq_none grown add).symm
      | some next => exact ih (toInt32?_eq_some_iff.1 add)

/-- The reader of machine values agrees with one that never leaves the range on its way. -/
theorem readInt32?_eq_gather {sign digits : List Char} (numeral : Numeral sign digits) :
    readInt32? (sign ++ digits) = gather (sign == ['-']) 0 digits := by
  have zero : (0 : Int32).toInt = signed (sign == ['-']) 0 := by
    cases sign == ['-'] <;> rfl
  rw [gather_eq digits zero, ofDigitChars_eq_magnitude, Nat.mul_zero, Nat.zero_add, readInt32?,
    readInt?_numeral numeral]
  rfl

end Decimal

/-! ## Number tokens -/

/-- A number token is read as the machine value that is equal to the number it writes, and refused
with its text where there is none. -/
structure Token.ReadAs (token : Token) (number : Int) : Prop where
  fits : -2 ^ 31 ≤ number → number ≤ 2 ^ 31 - 1 →
    ∃ value, Item.readNumber token = .ok value ∧ value.toInt = number
  exceeds : number < -2 ^ 31 ∨ 2 ^ 31 - 1 < number →
    Item.readNumber token = .error (.invalidNumber token.value)

theorem readAs_numeral {sign digits : List Char} (numeral : Numeral sign digits) {token : Token}
    (text : token.value = String.ofList (sign ++ digits)) :
    token.ReadAs (Decimal.valueOf sign digits) := by
  have read : Decimal.readInt32? token.value.toList =
      Decimal.toInt32? (Decimal.valueOf sign digits) := by
    rw [text, String.toList_ofList, Decimal.readInt32?, Decimal.readInt?_numeral numeral]
    rfl
  refine ⟨fun lower upper => ?_, fun outside => ?_⟩
  · have inside : Decimal.toInt32? (Decimal.valueOf sign digits) ≠ none := by
      rw [Ne, Decimal.toInt32?_eq_none_iff]
      omega
    obtain ⟨value, found⟩ := Option.ne_none_iff_exists'.1 inside
    refine ⟨value, ?_, Decimal.toInt32?_eq_some_iff.1 found⟩
    rw [Item.readNumber, read, found]
  · rw [Item.readNumber, read, Decimal.toInt32?_eq_none_iff.2 outside]

/-- A numeral behind a mnemonic is a token. -/
theorem exists_number_token {sign digits : List Char} (numeral : Numeral sign digits) :
    ∃ text, ∃ token ∈ (tokenize text).tokens,
      token.kind = .number ∧ token.value = String.ofList (sign ++ digits) := by
  let head : Token := ⟨.instruction, dataMnemonic, 0⟩
  let argument : Token := ⟨.number, String.ofList (sign ++ digits), 0⟩
  have orderly : Orderly [head, argument] := by
    have inside : ∀ token ∈ [argument], token.isArgument = true := List.forall_mem_singleton.2 rfl
    exact .instruction rfl inside .nil
  have lexical : ∀ token ∈ [head, argument], token.Lexical := by
    refine List.forall_mem_cons.2 ⟨?_, List.forall_mem_singleton.2 ?_⟩
    · exact identifier_dataMnemonic
    · exact ⟨sign, digits, String.toList_ofList, numeral⟩
  obtain ⟨again, read, same⟩ := readBack_of_printable ⟨orderly, lexical⟩
  have member : argument.content ∈ again.map Token.content := by
    rw [same]
    exact List.mem_map_of_mem (List.mem_cons_of_mem _ List.mem_cons_self)
  obtain ⟨token, inside, content⟩ := List.mem_map.1 member
  refine ⟨printed [head, argument], token, ?_, congrArg Prod.fst content,
    congrArg Prod.snd content⟩
  rw [read]
  exact inside

/-- The values of number tokens are the numerals. -/
theorem number_token_iff {value : String} :
    (∃ text, ∃ token ∈ (tokenize text).tokens, token.kind = .number ∧ token.value = value) ↔
      ∃ sign digits, Numeral sign digits ∧ value = String.ofList (sign ++ digits) := by
  constructor
  · rintro ⟨text, token, member, kind, rfl⟩
    have lexical := lexical_tokenize text token member
    rw [Token.Lexical, kind] at lexical
    obtain ⟨sign, digits, split, numeral⟩ := lexical
    exact ⟨sign, digits, numeral, by rw [← split, String.ofList_toList]⟩
  · rintro ⟨sign, digits, numeral, rfl⟩
    exact exists_number_token numeral

/-- An immediate is written as a numeral of its own value. -/
theorem immediate_numeral (value : Int32) :
    ∃ sign digits, Numeral sign digits ∧
      Disassembly.immediate value = String.ofList (sign ++ digits) ∧
      Decimal.valueOf sign digits = value.toInt := by
  obtain ⟨sign, digits, text, numeral⟩ := numeral_ofInt32 value
  have read := Decimal.readInt?_ofInt value.toInt
  rw [← Decimal.ofInt32, text, Decimal.readInt?_numeral numeral] at read
  exact ⟨sign, digits, numeral, by rw [← text, String.ofList_toList]; rfl, Option.some.inj read⟩

/-- The number tokens are those of a text of digits with at most one sign in front, and each of them
is read as the number that it writes or refused, in the same way as digit by digit. What is written
for an immediate is such a text, and it is read as the immediate. -/
theorem numbers_read_exactly :
    (∀ value, (∃ text, ∃ token ∈ (tokenize text).tokens,
        token.kind = .number ∧ token.value = value) ↔
      ∃ sign digits, Numeral sign digits ∧ value = String.ofList (sign ++ digits)) ∧
    (∀ sign digits, Numeral sign digits →
      (∀ token : Token, token.value = String.ofList (sign ++ digits) →
        token.ReadAs (Decimal.valueOf sign digits)) ∧
      Decimal.readInt32? (sign ++ digits) = Decimal.gather (sign == ['-']) 0 digits) ∧
    ∀ value, ∃ sign digits, Numeral sign digits ∧
      Disassembly.immediate value = String.ofList (sign ++ digits) ∧
      ∀ token : Token, token.value = Disassembly.immediate value →
        Item.readNumber token = .ok value := by
  refine ⟨fun value => number_token_iff, fun sign digits numeral => ⟨?_, ?_⟩, fun value => ?_⟩
  · intro token text
    exact readAs_numeral numeral text
  · exact Decimal.readInt32?_eq_gather numeral
  · obtain ⟨sign, digits, numeral, text, number⟩ := immediate_numeral value
    refine ⟨sign, digits, numeral, text, fun token same => ?_⟩
    have read := readAs_numeral numeral (same.trans text)
    rw [number] at read
    obtain ⟨again, ok, equal⟩ := read.fits value.le_toInt (Int.le_sub_one_of_lt value.toInt_lt)
    rw [ok, Int32.toInt_inj.1 equal]

example : Item.readNumber ⟨.number, "-002147483648", 0⟩ = .ok Int32.minValue := by decide +kernel

example : Item.readNumber ⟨.number, "+2147483648", 0⟩ = .error (.invalidNumber "+2147483648") := by
  decide +kernel

end TickMachine
