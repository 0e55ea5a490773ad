/-! # The order of texts and of their bytes

Texts are compared character by character. The bytes in which they are encoded are in the same
order: a character with a lower code has lower bytes, whatever stands behind it. -/

namespace TickMachine.Text

/-- The bytes in which a text is encoded. -/
def bytes (text : String) : List UInt8 := text.toUTF8.data.toList

theorem bytes_eq_flatMap (text : String) :
    bytes text = text.toList.flatMap String.utf8EncodeChar := by
  rw [bytes, String.toUTF8, ← String.utf8Encode_toList, List.utf8Encode, List.data_toByteArray]

theorem ofNat_cons_lt_iff {m n : Nat} (hm : m < 256) (hn : n < 256) {left right : List UInt8} :
    UInt8.ofNat m :: left < UInt8.ofNat n :: right ↔ m < n ∨ m = n ∧ left < right := by
  rw [List.cons_lt_cons_iff, UInt8.lt_iff_toNat_lt, ← UInt8.toNat_inj, UInt8.toNat_ofNat',
    UInt8.toNat_ofNat', Nat.mod_eq_of_lt hm, Nat.mod_eq_of_lt hn]

/-- A character with a lower code has lower bytes, and what stands behind them does not matter. -/
theorem encodeChar_lt {c d : Char} (h : c < d) (left right : List UInt8) :
    String.utf8EncodeChar c ++ left < String.utf8EncodeChar d ++ right := by
  have below : c.val.toNat < d.val.toNat := h
  have small : d.val.toNat < 1114112 := by
    rcases d.valid with low | ⟨-, high⟩
    · exact Nat.lt_trans low (by decide)
    · exact high
  unfold String.utf8EncodeChar
  generalize c.val.toNat = m at below
  generalize d.val.toNat = n at below small
  have twice : ∀ code, code / 4096 = code / 64 / 64 :=
    fun code => (Nat.div_div_eq_div_mul code 64 64).symm
  have thrice : ∀ code, code / 262144 = code / 64 / 64 / 64 := by
    intro code
    rw [Nat.div_div_eq_div_mul code, Nat.div_div_eq_div_mul code]
  simp only [twice, thrice]
  -- one case for each pair of lengths; the first byte tells a shorter code from a longer one
  repeat' split
  all_goals simp (disch := omega) only [List.cons_append, List.nil_append, ofNat_cons_lt_iff]
  all_goals omega

/-- The bytes of texts are in the order of the texts. -/
theorem bytes_lt {a b : String} (h : a < b) : bytes a < bytes b := by
  rw [String.lt_iff] at h
  rw [bytes_eq_flatMap, bytes_eq_flatMap]
  generalize a.toList = left at h
  generalize b.toList = right at h
  induction h with
  | @nil c others =>
    obtain ⟨byte, bytes, parts⟩ := List.exists_cons_of_ne_nil String.utf8EncodeChar_ne_nil
    rw [List.flatMap_nil, List.flatMap_cons, parts]
    exact List.nil_lt_cons _ _
  | rel first => exact encodeChar_lt first _ _
  | cons others ih => exact List.append_left_lt ih

end TickMachine.Text
