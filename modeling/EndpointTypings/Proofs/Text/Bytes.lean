import Mathlib.Data.String.Basic

/-!
# The order of texts and of their bytes

File names are compared by the bytes of their UTF-8 forms, and texts are compared by the codes of
their characters. `Text.bytes_lt_of_lt` says that the two agree. The reason is that the form of a
character with a greater code is greater whatever follows either of them
(`Text.utf8EncodeChar_append_lt`): its first byte tells how many bytes there are, more of them for
greater codes, and among forms of one length the digits of the code stand in order.
-/

namespace EndpointTypings.Text

/-- The bytes of the UTF-8 form of a text. -/
def bytes (text : String) : List UInt8 :=
  text.toUTF8.data.toList

/-- The bytes of a text are those of its characters. -/
theorem bytes_eq_flatMap (text : String) :
    bytes text = text.toList.flatMap String.utf8EncodeChar := by
  rw [bytes, String.toUTF8_eq_toByteArray, ← String.utf8Encode_toList, List.utf8Encode,
    List.toList_data_toByteArray]

/-- Byte lists are compared by their first bytes, given as numbers, and then by the others. -/
theorem cons_ofNat_lt_iff {m n : Nat} (hm : m < 256) (hn : n < 256) {s t : List UInt8} :
    UInt8.ofNat m :: s < UInt8.ofNat n :: t ↔ m < n ∨ m = n ∧ s < t := by
  have hlt : UInt8.ofNat m < UInt8.ofNat n ↔ m < n := UInt8.ofNat_lt_iff_lt hm hn
  have heq : UInt8.ofNat m = UInt8.ofNat n ↔ m = n := by
    rw [← UInt8.toNat_inj, UInt8.toNat_ofNat', UInt8.toNat_ofNat', Nat.mod_eq_of_lt hm,
      Nat.mod_eq_of_lt hn]
  rw [List.cons_lt_cons_iff, hlt, heq]

/-- A code is the sum of its digits to the base of 64. -/
theorem eq_digits {code : Nat} (h : code < 0x110000) :
    code = code / 262144 % 8 * 262144 + code / 4096 % 64 * 4096 + code / 64 % 64 * 64
      + code % 64 := by
  have h₁ : code / 64 / 64 = code / 4096 := Nat.div_div_eq_div_mul code 64 64
  have h₂ : code / 4096 / 64 = code / 262144 := Nat.div_div_eq_div_mul code 4096 64
  omega

/-- The form of a character is less than that of a greater one, whatever follows them. -/
theorem utf8EncodeChar_append_lt {c d : Char} (h : c < d) (s t : List UInt8) :
    String.utf8EncodeChar c ++ s < String.utf8EncodeChar d ++ t := by
  have hlt : c.val.toNat < d.val.toNat := h
  have hd : d.val.toNat < 0x110000 := by
    have hvalid : d.val.toNat < 0xD800 ∨ 0xDFFF < d.val.toNat ∧ d.val.toNat < 0x110000 := d.valid
    omega
  unfold String.utf8EncodeChar
  generalize c.val.toNat = m at hlt
  generalize d.val.toNat = n at hlt hd
  have hm := eq_digits (hlt.trans hd)
  have hn := eq_digits hd
  dsimp only
  split_ifs
  all_goals
    simp (disch := omega) only [List.cons_append, List.nil_append, cons_ofNat_lt_iff]
    omega

/-- The forms of characters in order are in order. -/
theorem flatMap_utf8EncodeChar_lt {s t : List Char} (h : s < t) :
    s.flatMap String.utf8EncodeChar < t.flatMap String.utf8EncodeChar := by
  induction h with
  | @nil c cs =>
    rw [List.flatMap_nil, List.flatMap_cons]
    obtain ⟨first, more, hform⟩ :=
      List.exists_cons_of_ne_nil (String.utf8EncodeChar_ne_nil (c := c))
    rw [hform]
    exact .nil
  | @rel c s d t hlt =>
    rw [List.flatMap_cons, List.flatMap_cons]
    exact utf8EncodeChar_append_lt hlt _ _
  | @cons c s t _ ih =>
    rw [List.flatMap_cons, List.flatMap_cons]
    exact List.append_left_lt ih

/-- Texts in order have their bytes in order. -/
theorem bytes_lt_of_lt {text other : String} (h : text < other) : bytes text < bytes other := by
  rw [bytes_eq_flatMap, bytes_eq_flatMap]
  exact flatMap_utf8EncodeChar_lt (String.lt_iff_toList_lt.1 h)

end EndpointTypings.Text
