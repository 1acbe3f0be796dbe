import EndpointTypings.Json.Writer
import EndpointTypings.Proofs.Json.Grammar

/-!
# Integers are numbers of the grammar

An integer is written in decimal digits, behind a minus if it is negative. These are a number of the
grammar (`isNumeral_int`), and one that fits 64 bits has the integer for its value, so that what is
written for the integer spells it (`isScalar_int`).
-/

namespace EndpointTypings.Json

/-- The digits of a number are digits. -/
theorem isDigits_toDigits (n : Nat) : IsDigits (Nat.toDigits 10 n) :=
  ⟨Nat.toDigits_ne_nil, fun _ hc => Nat.isDigit_of_mem_toDigits (by decide) (by decide) hc⟩

/-- The digits of a positive number do not start with a zero. -/
theorem head?_toDigits_ne {n : Nat} (hn : 0 < n) : (Nat.toDigits 10 n).head? ≠ some '0' := by
  induction n using Nat.strongRecOn with
  | ind n ih =>
    by_cases hsmall : n < 10
    · have hdigit : ∀ m < 10, 0 < m → Nat.digitChar m ≠ '0' := by decide
      rw [Nat.toDigits_of_lt_base hsmall]
      simpa using hdigit n hsmall hn
    -- the first digit is that of a tenth of the number
    · obtain ⟨c, cs, hdigits⟩ := List.exists_cons_of_ne_nil (@Nat.toDigits_ne_nil (n / 10) 10)
      have hfirst := ih (n / 10) (by omega) (by omega)
      rw [hdigits] at hfirst
      rw [Nat.toDigits_of_base_le (by decide) (by omega), hdigits]
      exact hfirst

/-- The digits of a number can stand before a point. -/
theorem isWhole_toDigits (n : Nat) : IsWhole (Nat.toDigits 10 n) := by
  rcases Nat.eq_zero_or_pos n with rfl | hn
  · exact .inl (Nat.toDigits_zero 10)
  · exact .inr ⟨isDigits_toDigits n, head?_toDigits_ne hn⟩

/-- The digits of a number have that number for their value. -/
theorem digitsValue_toDigits (n : Nat) : digitsValue (Nat.toDigits 10 n) = n := by
  have hfold : digitsValue (Nat.toDigits 10 n) = Nat.ofDigitChars 10 (Nat.toDigits 10 n) 0 :=
    Nat.ofDigitChars_eq_foldl.symm
  rw [hfold, Nat.ofDigitChars_ten_toDigits]

/-- The parts of an integer as it is written. -/
def intNumeral : Int → Numeral
  | .ofNat n => ⟨false, Nat.toDigits 10 n, none, none⟩
  | .negSucc n => ⟨true, Nat.toDigits 10 (n + 1), none, none⟩

/-- The digits of a number, without a point, are a number behind its minus. -/
theorem isUnsigned_toDigits (negative : Bool) (n : Nat) :
    IsUnsigned negative (Nat.toDigits 10 n) ⟨negative, Nat.toDigits 10 n, none, none⟩ := by
  have hunsigned : IsUnsigned negative _ _ := .mk (isWhole_toDigits n) .absent .absent
  rwa [List.append_nil, List.append_nil] at hunsigned

/-- What is written for an integer is a number of the grammar. -/
theorem isNumeral_int (n : Int) : IsNumeral (toString n).toList (intNumeral n) := by
  cases n with
  | ofNat n =>
    have hchars : (toString (Int.ofNat n)).toList = Nat.toDigits 10 n := Nat.toList_repr
    rw [hchars]
    exact .plain (isUnsigned_toDigits false n)
  | negSucc n =>
    have hchars : (toString (Int.negSucc n)).toList = '-' :: Nat.toDigits 10 (n + 1) := by
      have hminus : toString (Int.negSucc n) = "-" ++ Nat.repr (n + 1) := rfl
      rw [hminus, String.toList_append, Nat.toList_repr]
      rfl
    rw [hchars]
    exact .negative (isUnsigned_toDigits true (n + 1))

/-- An integer of at most 64 bits, with a sign if it is negative. -/
structure IsWord (n : Int) : Prop where
  /-- It has at most 63 bits besides the sign. -/
  low : -(Nat.pow 2 63 : Nat) ≤ n
  /-- Without a sign it has at most 64 bits. -/
  high : n < (Nat.pow 2 64 : Nat)

/-- A natural number of at most 64 bits needs no sign. -/
theorem isWord_natCast {n : Nat} (h : n < Nat.pow 2 64) : IsWord n where
  low := by
    have hzero : (0 : Int) ≤ n := Int.natCast_nonneg n
    omega
  high := Int.ofNat_lt.2 h

/-- An integer of at most 64 bits is the value of its parts. -/
theorem value_intNumeral {n : Int} (h : IsWord n) : (intNumeral n).value = some (.int n) := by
  have hint : (intNumeral n).int = some n := by
    cases n with
    | ofNat n =>
      have hfits : n < Nat.pow 2 64 := Int.ofNat_lt.1 h.high
      simp [Numeral.int, intNumeral, digitsValue_toDigits, hfits]
    | negSucc n =>
      have hlow := h.low
      have hfits : n + 1 ≤ Nat.pow 2 63 := by omega
      simp [Numeral.int, intNumeral, digitsValue_toDigits, hfits, Int.negSucc_eq]
  simp only [Numeral.value, hint]

/-- What is written for an integer of at most 64 bits spells it. -/
theorem isScalar_int {n : Int} (h : IsWord n) : IsScalar (scalar (.int n)) (.int n) :=
  .number (isNumeral_int n) (value_intNumeral h)

end EndpointTypings.Json
