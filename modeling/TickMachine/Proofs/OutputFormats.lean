import TickMachine.OutputFormat
import TickMachine.Proofs.Json.Strings
import TickMachine.Proofs.Text.Separated

/-! # Formats read back

Every format keeps all that there is to say about the bytes: the numbers that are written can be
read again, and they give the bytes. Only the formats in groups of four add something, which are the
zeros that complete the last group. -/

namespace TickMachine

/-! ## Hexadecimal numbers -/

namespace Hexadecimal

/-- The number that is written by digits behind those of another one. -/
def gather? (number : Nat) (digits : List Char) : Option Nat :=
  digits.foldlM (fun number digit => (Json.hexValue? digit).map (16 * number + ·)) number

/-- The number written by one or more hexadecimal digits behind their mark; any other text is
refused. -/
def readNat? : List Char → Option Nat
  | '0' :: 'x' :: digits => if digits = [] then none else gather? 0 digits
  | _ => none

theorem gather?_digitChar (number : Nat) {digit : Nat} (small : digit < 16) :
    gather? number [Nat.digitChar digit] = some (16 * number + digit) := by
  have value := Json.hexValue?_digitChar ⟨digit, small⟩
  simp only [gather?, List.foldlM_cons, List.foldlM_nil, value, Option.map_some]
  rfl

theorem gather?_toDigits (n : Nat) : gather? 0 (Nat.toDigits 16 n) = some n := by
  induction n using Nat.strongRecOn with
  | ind n ih =>
    by_cases single : n < 16
    · rw [Nat.toDigits_of_lt_base single, gather?_digitChar 0 single, Nat.mul_zero, Nat.zero_add]
    · have front := ih (n / 16) (by omega)
      have last := gather?_digitChar (n / 16) (Nat.mod_lt n (by decide : 0 < 16))
      unfold gather? at front last ⊢
      rw [Nat.toDigits_of_base_le (by decide) (Nat.not_lt.1 single), List.foldlM_append, front]
      exact last.trans (congrArg some (Nat.div_add_mod n 16))

theorem digit_of_mem {n : Nat} {c : Char} (h : c ∈ Nat.toDigits 16 n) :
    ∃ digit < 16, c = Nat.digitChar digit := by
  induction n using Nat.strongRecOn with
  | ind n ih =>
    by_cases single : n < 16
    · rw [Nat.toDigits_of_lt_base single, List.mem_singleton] at h
      exact ⟨n, single, h⟩
    · rw [Nat.toDigits_of_base_le (by decide) (Nat.not_lt.1 single), List.mem_append,
        List.mem_singleton] at h
      rcases h with front | last
      · exact ih (n / 16) (by omega) front
      · exact ⟨n % 16, Nat.mod_lt n (by decide), last⟩

theorem digitChar_ne_comma : ∀ digit < 16, Nat.digitChar digit ≠ ',' := by decide

end Hexadecimal

namespace OutputFormat

/-! ## Bytes and numbers -/

theorem toList_hex (n : Nat) : (hex n).toList = '0' :: 'x' :: Nat.toDigits 16 n := by
  simp [hex, Text.hexDigits]

theorem readNat?_hex (n : Nat) : Hexadecimal.readNat? (hex n).toList = some n := by
  rw [toList_hex, Hexadecimal.readNat?, if_neg Nat.toDigits_ne_nil, Hexadecimal.gather?_toDigits]

theorem isItem_hex (n : Nat) : Text.IsItem (hex n) where
  filled := by
    intro nothing
    have digits := toList_hex n
    rw [nothing] at digits
    cases digits
  plain := by
    intro comma
    rw [toList_hex, List.mem_cons, List.mem_cons] at comma
    rcases comma with mark | mark | digit
    · cases mark
    · cases mark
    · obtain ⟨digit, small, same⟩ := Hexadecimal.digit_of_mem digit
      exact Hexadecimal.digitChar_ne_comma digit small same.symm

theorem listOf?_decimal (numbers : List Nat) :
    Text.listOf? Decimal.readNat? (", ".intercalate (numbers.map Decimal.ofNat)) = some numbers :=
  Text.listOf?_intercalate isItem_ofNat Decimal.readNat?_ofNat numbers

theorem listOf?_hex (numbers : List Nat) :
    Text.listOf? Hexadecimal.readNat? (", ".intercalate (numbers.map hex)) = some numbers :=
  Text.listOf?_intercalate isItem_hex readNat?_hex numbers

/-! ## Groups of four -/

/-- The four bytes of a number, the low byte first. -/
def encode (number : UInt32) : List UInt8 :=
  [number.toUInt8, (number >>> 8).toUInt8, (number >>> 16).toUInt8, (number >>> 24).toUInt8]

/-- The fewest zeros that complete the last group of four. -/
structure Completes (data : List UInt8) (zeros : Nat) : Prop where
  whole : 4 ∣ data.length + zeros
  fewest : ∀ fewer, 4 ∣ data.length + fewer → zeros ≤ fewer

theorem encode_toNat (number : UInt32) :
    (encode number).map UInt8.toNat =
      [number.toNat % 256, number.toNat / 256 % 256, number.toNat / 65536 % 256,
        number.toNat / 16777216 % 256] := by
  simp only [encode, List.map_cons, List.map_nil, UInt32.toNat_toUInt8, UInt32.toNat_shiftRight,
    Nat.shiftRight_eq_div_pow, UInt32.reduceToNat, Nat.reduceMod, Nat.reducePow]

theorem littleEndian_group (a b c d : UInt8) :
    littleEndian [a, b, c, d] =
      a.toNat + 256 * (b.toNat + 256 * (c.toNat + 256 * (d.toNat + 256 * 0))) := rfl

/-- The number of a group has 32 bits, and its bytes are those of the group. -/
theorem encode_group (a b c d : UInt8) :
    ∃ number : UInt32, number.toNat = littleEndian [a, b, c, d] ∧ encode number = [a, b, c, d] := by
  have := a.toNat_lt
  have := b.toNat_lt
  have := c.toNat_lt
  have := d.toNat_lt
  have small : littleEndian [a, b, c, d] < UInt32.size := by
    rw [littleEndian_group, UInt32.size]
    omega
  have number := UInt32.toNat_ofNat_of_lt' small
  refine ⟨UInt32.ofNat (littleEndian [a, b, c, d]), number, ?_⟩
  apply (List.map_inj_right fun _ _ => UInt8.toNat_inj.1).1
  rw [encode_toNat, number, littleEndian_group]
  simp only [List.map_cons, List.map_nil, List.cons.injEq, and_true]
  omega

/-- A last group that is not full counts as one with zeros behind it. -/
theorem encode_short {short : List UInt8} (filled : short ≠ []) (fits : short.length < 4) :
    ∃ number : UInt32, number.toNat = littleEndian short ∧
      encode number = short ++ List.replicate (4 - short.length) 0 := by
  match short with
  | [a] => exact encode_group a 0 0 0
  | [a, b] => exact encode_group a b 0 0
  | [a, b, c] => exact encode_group a b c 0

/-- The groups are numbers of 32 bits that hold the bytes and the zeros behind them. -/
theorem exists_numbers (data : List UInt8) :
    ∃ (numbers : List UInt32) (zeros : Nat), groups data = numbers.map UInt32.toNat ∧
      numbers.length = (data.length + 3) / 4 ∧ Completes data zeros ∧
      numbers.flatMap encode = data ++ List.replicate zeros 0 := by
  fun_induction groups data with
  | case1 => exact ⟨[], 0, rfl, rfl, ⟨by decide, fun _ _ => Nat.zero_le _⟩, rfl⟩
  | case2 a b c d rest ih =>
    obtain ⟨numbers, zeros, read, count, completes, bytes⟩ := ih
    obtain ⟨number, first, group⟩ := encode_group a b c d
    refine ⟨number :: numbers, zeros, ?_, ?_, ⟨?_, ?_⟩, ?_⟩
    · rw [List.map_cons, first, read]
    · simp only [List.length_cons, count]
      omega
    · have := completes.whole
      simp only [List.length_cons]
      omega
    · intro fewer whole
      refine completes.fewest fewer ?_
      simp only [List.length_cons] at whole
      omega
    · rw [List.flatMap_cons, group, bytes]
      rfl
  | case3 short filled unfilled =>
    have fits : short.length < 4 := by
      match short with
      | [] | [_] | [_, _] | [_, _, _] => simp
      | a :: b :: c :: d :: rest => exact absurd rfl (unfilled a b c d rest)
    have present : 0 < short.length := List.length_pos_iff.2 filled
    obtain ⟨number, read, bytes⟩ := encode_short filled fits
    refine ⟨[number], 4 - short.length, ?_, ?_, ⟨?_, ?_⟩, ?_⟩
    · rw [List.map_singleton, read]
    · rw [List.length_singleton]
      omega
    · omega
    · intro fewer whole
      omega
    · rw [List.flatMap_singleton, bytes]

/-! ## Characters -/

theorem toNat_character (byte : UInt8) : (Char.ofNat byte.toNat).toNat = byte.toNat := by
  have small := byte.toNat_lt
  have valid : byte.toNat.isValidChar := .inl (by omega)
  rw [Char.ofNat, dif_pos valid]
  rfl

theorem map_toNat_str (data : List UInt8) :
    (render .str data).toList.map Char.toNat = data.map UInt8.toNat := by
  rw [render, String.toList_ofList, List.map_map]
  exact List.map_congr_left fun byte _ => toNat_character byte

/-! ## All formats -/

theorem render_bytes (data : List UInt8) :
    render .bytes data = ", ".intercalate ((data.map UInt8.toNat).map Decimal.ofNat) := by
  rw [List.map_map]
  rfl

theorem render_hexBytes (data : List UInt8) :
    render .hexBytes data = ", ".intercalate ((data.map UInt8.toNat).map hex) := by
  rw [List.map_map]
  rfl

theorem groups_eq_nil_iff (data : List UInt8) : groups data = [] ↔ data = [] := by
  fun_cases groups data with
  | case1 => simp
  | case2 => simp
  | case3 _ filled => exact iff_of_false (List.cons_ne_nil _ _) filled

/-- Nothing but an empty output is rendered as the empty text. -/
theorem render_eq_empty_iff (format : OutputFormat) (data : List UInt8) :
    format.render data = "" ↔ data = [] := by
  cases format with
  | str => simp [render, ← String.toList_inj]
  | ints => exact (Text.intercalate_eq_empty_iff isItem_ofNat _).trans (groups_eq_nil_iff data)
  | hexInts => exact (Text.intercalate_eq_empty_iff isItem_hex _).trans (groups_eq_nil_iff data)
  | bytes =>
    rw [render_bytes]
    exact (Text.intercalate_eq_empty_iff isItem_ofNat _).trans List.map_eq_nil_iff
  | hexBytes =>
    rw [render_hexBytes]
    exact (Text.intercalate_eq_empty_iff isItem_hex _).trans List.map_eq_nil_iff

/-- What is rendered can be read back. The numbers of the formats in bytes are the bytes, and the
format in characters has one character for each byte, with the byte as its code. The two formats in
groups of four hold the same numbers of 32 bits, whose bytes are the bytes with the fewest zeros
behind them that make the last group complete. Nothing but an empty output is rendered as the empty
text. -/
theorem renderings_are_faithful (data : List UInt8) :
    Text.listOf? Decimal.readNat? (render .bytes data) = some (data.map UInt8.toNat) ∧
    Text.listOf? Hexadecimal.readNat? (render .hexBytes data) = some (data.map UInt8.toNat) ∧
    (render .str data).length = data.length ∧
    (render .str data).toList.map Char.toNat = data.map UInt8.toNat ∧
    (∃ (numbers : List UInt32) (zeros : Nat),
      Text.listOf? Decimal.readNat? (render .ints data) = some (numbers.map UInt32.toNat) ∧
      Text.listOf? Hexadecimal.readNat? (render .hexInts data) = some (numbers.map UInt32.toNat) ∧
      numbers.length = (data.length + 3) / 4 ∧
      numbers.flatMap encode = data ++ List.replicate zeros 0 ∧ Completes data zeros) ∧
    ∀ format : OutputFormat, format.render data = "" ↔ data = [] := by
  refine ⟨?bytes, ?hexBytes, ?length, map_toNat_str data, ?groups, fun format =>
    render_eq_empty_iff format data⟩
  case bytes =>
    rw [render_bytes]
    exact listOf?_decimal _
  case hexBytes =>
    rw [render_hexBytes]
    exact listOf?_hex _
  case length =>
    have codes := congrArg List.length (map_toNat_str data)
    rwa [List.length_map, List.length_map, String.length_toList] at codes
  case groups =>
    obtain ⟨numbers, zeros, read, count, completes, bytes⟩ := exists_numbers data
    refine ⟨numbers, zeros, ?_, ?_, count, bytes, completes⟩
    · rw [render, read]
      exact listOf?_decimal _
    · rw [render, read]
      exact listOf?_hex _

example : render .hexInts [1, 2, 3, 4, 255] = "0x4030201, 0xff" := by decide

end OutputFormat

end TickMachine
