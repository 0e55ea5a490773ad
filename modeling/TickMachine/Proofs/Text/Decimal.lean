import TickMachine.Text.Decimal

/-! # Decimals read back

The text of a number is a sequence of digits that has no superfluous zero in front, and reading it
gives the number again. -/

namespace TickMachine.Decimal

/-- The characters of a natural number in decimal. -/
def digits (n : Nat) : List Char := Nat.toDigits 10 n

theorem toList_ofNat (n : Nat) : (ofNat n).toList = digits n := String.toList_ofList

theorem isDigit_of_mem {n : Nat} {c : Char} (h : c ∈ digits n) : c.isDigit = true :=
  Nat.isDigit_of_mem_toDigits (by decide) (by decide) h

theorem digits_ne_nil (n : Nat) : digits n ≠ [] := Nat.toDigits_ne_nil

theorem ofNat_ne_empty (n : Nat) : ofNat n ≠ "" := by
  intro nothing
  have text := toList_ofNat n
  rw [nothing] at text
  exact digits_ne_nil n text.symm

/-- The digits of a number with its first digit set apart. -/
theorem exists_digits_eq_cons (n : Nat) :
    ∃ c rest, digits n = c :: rest ∧ c.isDigit = true := by
  obtain ⟨c, rest, parts⟩ := List.exists_cons_of_ne_nil (digits_ne_nil n)
  exact ⟨c, rest, parts, isDigit_of_mem (parts ▸ List.mem_cons_self)⟩

theorem ofDigitChars_digits (n : Nat) : Nat.ofDigitChars 10 (digits n) 0 = n :=
  Nat.ofDigitChars_ten_toDigits

theorem digitChar_eq_zero : ∀ digit < 10, Nat.digitChar digit = '0' → digit = 0 := by decide

/-- Only zero starts with a zero. -/
theorem head?_digits {n : Nat} (h : (digits n).head? = some '0') : n = 0 := by
  induction n using Nat.strongRecOn with
  | ind n ih =>
    by_cases single : n < 10
    · rw [digits, Nat.toDigits_of_lt_base single] at h
      exact digitChar_eq_zero n single (by simpa using h)
    · have shorter : (digits (n / 10)).head? = some '0' := by
        rw [digits, Nat.toDigits_of_base_le (by decide) (Nat.not_lt.1 single), List.head?_append,
          List.head?_eq_some_head Nat.toDigits_ne_nil] at h
        rw [digits, List.head?_eq_some_head Nat.toDigits_ne_nil]
        simpa using h
      have := ih (n / 10) (by omega) shorter
      omega

theorem toList_ofInt_ofNat (n : Nat) : (ofInt n).toList = digits n := toList_ofNat n

theorem toList_ofInt_neg (n : Nat) (positive : 0 < n) : (ofInt (-n)).toList = '-' :: digits n := by
  cases n with
  | zero => contradiction
  | succ n =>
    rw [show -((n + 1 : Nat) : Int) = Int.negSucc n from rfl]
    simp [ofInt, toList_ofNat]

/-! ## Machine values -/

/-- The characters of a machine value in decimal. -/
theorem sign_or_digit_of_mem {value : Int32} {c : Char} (h : c ∈ (ofInt32 value).toList) :
    c = '-' ∨ c.isDigit = true := by
  unfold ofInt32 ofInt at h
  split at h
  · rw [toList_ofNat] at h
    exact .inr (isDigit_of_mem h)
  · rw [String.toList_append, toList_ofNat] at h
    rcases List.mem_cons.1 h with sign | digit
    · exact .inl sign
    · exact .inr (isDigit_of_mem digit)

theorem ofInt32_ne_empty (value : Int32) : ofInt32 value ≠ "" := by
  unfold ofInt32 ofInt
  split
  · exact ofNat_ne_empty _
  · simp

theorem toInt32?_toInt (value : Int32) : toInt32? value.toInt = some value := by
  rw [toInt32?, if_pos ⟨value.minValue_le_toInt, value.toInt_le⟩, Int32.ofInt_toInt]

/-- The machine value of an integer is the one that is equal to it. -/
theorem toInt32?_eq_some_iff {number : Int} {value : Int32} :
    toInt32? number = some value ↔ value.toInt = number := by
  constructor
  · intro found
    unfold toInt32? at found
    split at found
    · next range =>
      cases found
      exact Int32.toInt_ofInt_of_le range.1 (Int.lt_of_le_of_lt range.2 (by decide))
    · cases found
  · intro same
    rw [← same, toInt32?_toInt]

theorem toInt32?_eq_none_iff {number : Int} :
    toInt32? number = none ↔ number < -2147483648 ∨ 2147483647 < number := by
  have least : Int32.minValue.toInt = -2147483648 := rfl
  have greatest : Int32.maxValue.toInt = 2147483647 := rfl
  rw [toInt32?, least, greatest]
  split
  · next range =>
    refine iff_of_false (by simp) ?_
    omega
  · next outside =>
    refine iff_of_true rfl ?_
    omega

theorem readNat?_digits (n : Nat) : readNat? (digits n) = some n := by
  have all : (digits n).all Char.isDigit = true := List.all_eq_true.2 fun _ => isDigit_of_mem
  rw [readNat?, if_pos ⟨digits_ne_nil n, all⟩, ofDigitChars_digits]

theorem readNat?_ofNat (n : Nat) : readNat? (ofNat n).toList = some n := by
  rw [toList_ofNat, readNat?_digits]

/-- A text that starts with a digit has no sign in front. -/
theorem readInt?_of_isDigit {c : Char} (digit : c.isDigit = true) (rest : List Char) :
    readInt? (c :: rest) = (readNat? (c :: rest)).map fun n => (n : Int) := by
  unfold readInt?
  split
  · next same =>
    cases same
    cases digit
  · next same =>
    cases same
    cases digit
  · rfl

theorem readInt?_digits (n : Nat) : readInt? (digits n) = some (n : Int) := by
  have read := readNat?_digits n
  obtain ⟨c, rest, parts, digit⟩ := exists_digits_eq_cons n
  rw [parts] at read ⊢
  rw [readInt?_of_isDigit digit, read]
  rfl

theorem readInt?_neg_digits (n : Nat) : readInt? ('-' :: digits n) = some (-(n : Int)) := by
  rw [readInt?, readNat?_digits]
  rfl

/-- An integer is read back from its text. -/
theorem readInt?_ofInt (value : Int) : readInt? (ofInt value).toList = some value := by
  rcases Int.eq_nat_or_neg value with ⟨n, rfl | rfl⟩
  · rw [toList_ofInt_ofNat, readInt?_digits]
  · cases n with
    | zero => exact readInt?_digits 0
    | succ n => rw [toList_ofInt_neg _ (Nat.succ_pos n), readInt?_neg_digits]

theorem readInt32?_ofInt32 (value : Int32) : readInt32? (ofInt32 value).toList = some value := by
  rw [readInt32?, ofInt32, readInt?_ofInt, Option.bind_some, toInt32?_toInt]

/-! ## Different numbers have different texts -/

theorem ofNat_inj {m n : Nat} : ofNat m = ofNat n ↔ m = n := by
  refine ⟨fun same => ?_, congrArg ofNat⟩
  have read := readNat?_ofNat m
  rw [same, readNat?_ofNat] at read
  exact (Option.some.inj read).symm

theorem ofInt32_inj {left right : Int32} : ofInt32 left = ofInt32 right ↔ left = right := by
  refine ⟨fun same => ?_, congrArg ofInt32⟩
  have read := readInt32?_ofInt32 left
  rw [same, readInt32?_ofInt32] at read
  exact (Option.some.inj read).symm

end TickMachine.Decimal
