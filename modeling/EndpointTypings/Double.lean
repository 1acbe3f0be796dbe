/-!
# Double-precision numbers

A finite double is a sign and a magnitude `significand * 2 ^ exponent`, kept exactly. A `Magnitude`
carries its bounds: the significand has at most 53 bits, the exponent is from -1074 to 971, and with
fewer bits it is -1074, so that equal numbers have equal parts. Every operation is exact integer
arithmetic followed by one rounding to the nearest magnitude, halves to the even significand
(`Magnitude.ofRatio`), which is none when the result has no finite double.

So the rounding is what has to keep the bounds. `IsBelow` says how many bits hold a ratio at an
exponent. Only the sum of the two matters (`isBelow_add`), and the sizes of the parts of the ratio
leave two exponents at which it may have 53 bits (`isBelow_log2`, `not_isBelow_log2`). The right one
is held up at -1074, and rounding may carry into a bit more, which moves to the exponent.

No operation goes through machine floating point, so the kernel can evaluate all of them.
-/

namespace EndpointTypings

/-- A magnitude that a finite double can have. -/
structure Magnitude where
  /-- The significand. -/
  significand : Nat
  /-- The power of two it is multiplied with. -/
  exponent : Int
  /-- The significand has at most 53 bits. -/
  significand_lt : significand < Nat.pow 2 53
  /-- The exponent is not below the least one. -/
  le_exponent : -1074 ≤ exponent
  /-- The exponent is not above the greatest one. -/
  exponent_le : exponent ≤ 971
  /-- The significand has all of its bits unless the exponent is the least one. -/
  exponent_eq : significand < Nat.pow 2 52 → exponent = -1074
  deriving DecidableEq, Repr

/-- A finite double. Zero has a sign too. -/
structure Double where
  /-- Whether the sign is a minus. -/
  negative : Bool
  /-- The number without its sign. -/
  magnitude : Magnitude
  deriving DecidableEq, Repr

namespace Magnitude

/-- The magnitude zero. -/
def zero : Magnitude := ⟨0, -1074, by decide, by decide, by decide, fun _ => rfl⟩

/-- Whether a magnitude is zero. -/
def isZero (m : Magnitude) : Bool := m.significand == 0

/-- Whether a magnitude is normal: its significand has all of its 53 bits, so it is `2 ^ -1022` or
more. -/
def isNormal (m : Magnitude) : Bool := Nat.pow 2 52 ≤ m.significand

/-! ## Rounding -/

/-- The quotient of two numbers rounded to the nearest integer, a half to the even neighbour. -/
def roundedQuotient (num den : Nat) : Nat :=
  let quotient := num / den
  let rest := num % den
  if 2 * rest < den || (2 * rest == den && quotient % 2 == 0) then quotient else quotient + 1

/-- A rounded quotient is the quotient without its rest or the number after it. -/
theorem roundedQuotient_bounds (num den : Nat) :
    num / den ≤ roundedQuotient num den ∧ roundedQuotient num den ≤ num / den + 1 := by
  unfold roundedQuotient
  dsimp only
  split
  · exact ⟨Nat.le_refl _, Nat.le_succ _⟩
  · exact ⟨Nat.le_succ _, Nat.le_refl _⟩

/-- The numerator and the denominator of `num / den / 2 ^ exponent`. -/
def scaled (num den : Nat) (exponent : Int) : Nat × Nat :=
  (num * Nat.pow 2 (-exponent).toNat, den * Nat.pow 2 exponent.toNat)

/-- `num / den / 2 ^ exponent` is below `2 ^ bits`. -/
def IsBelow (num den bits : Nat) (exponent : Int) : Prop :=
  (scaled num den exponent).1 < Nat.pow 2 bits * (scaled num den exponent).2

instance (num den bits : Nat) (exponent : Int) : Decidable (IsBelow num den bits exponent) :=
  inferInstanceAs (Decidable (_ < _))

variable {num den bits more : Nat} {exponent : Int}

/-- More bits hold what fewer hold. -/
theorem IsBelow.mono (h : IsBelow num den bits exponent) (hle : bits ≤ more) :
    IsBelow num den more exponent :=
  Nat.lt_of_lt_of_le h (Nat.mul_le_mul_right _ (Nat.pow_le_pow_right (by decide) hle))

/-- A ratio is below a power of two if its quotient is. -/
theorem isBelow_iff (hden : den ≠ 0) :
    IsBelow num den bits exponent
      ↔ (scaled num den exponent).1 / (scaled num den exponent).2 < Nat.pow 2 bits :=
  (Nat.div_lt_iff_lt_mul (Nat.mul_pos (Nat.pos_of_ne_zero hden) (Nat.two_pow_pos _))).symm

/-- A product of powers of two is one. -/
theorem two_pow_add (m n : Nat) : Nat.pow 2 (m + n) = Nat.pow 2 m * Nat.pow 2 n :=
  Nat.pow_add 2 m n

/-- A higher exponent takes as many bits away. -/
theorem isBelow_add (k : Nat) :
    IsBelow num den bits (exponent + k) ↔ IsBelow num den (bits + k) exponent := by
  -- both sides over one denominator
  have hnum : num * Nat.pow 2 (-(exponent + k)).toNat * Nat.pow 2 (k + exponent.toNat)
      = num * Nat.pow 2 (-exponent).toNat * Nat.pow 2 (exponent + k).toNat := by
    rw [Nat.mul_assoc, Nat.mul_assoc, ← two_pow_add, ← two_pow_add]
    congr 2
    omega
  have hden : Nat.pow 2 bits * (den * Nat.pow 2 (exponent + k).toNat)
        * Nat.pow 2 (k + exponent.toNat)
      = Nat.pow 2 (bits + k) * (den * Nat.pow 2 exponent.toNat)
        * Nat.pow 2 (exponent + k).toNat := by
    rw [two_pow_add bits, two_pow_add k]
    ac_rfl
  calc IsBelow num den bits (exponent + k)
    _ ↔ num * Nat.pow 2 (-(exponent + k)).toNat * Nat.pow 2 (k + exponent.toNat)
          < Nat.pow 2 bits * (den * Nat.pow 2 (exponent + k).toNat)
            * Nat.pow 2 (k + exponent.toNat) :=
        (Nat.mul_lt_mul_right (Nat.two_pow_pos _)).symm
    _ ↔ IsBelow num den (bits + k) exponent := by
        rw [hnum, hden]
        exact Nat.mul_lt_mul_right (Nat.two_pow_pos _)

/-- At an exponent 53 below the difference of their sizes, a ratio has at most 54 bits. -/
theorem isBelow_log2 (hden : den ≠ 0) :
    IsBelow num den 54 ((num.log2 : Int) - den.log2 - 53) := by
  have hnum : num < Nat.pow 2 (num.log2 + 1) := Nat.lt_log2_self
  have hlow : Nat.pow 2 den.log2 ≤ den := Nat.log2_self_le hden
  calc num * Nat.pow 2 (-((num.log2 : Int) - den.log2 - 53)).toNat
    _ < Nat.pow 2 (num.log2 + 1) * Nat.pow 2 (-((num.log2 : Int) - den.log2 - 53)).toNat :=
        (Nat.mul_lt_mul_right (Nat.two_pow_pos _)).2 hnum
    _ = Nat.pow 2 54
          * (Nat.pow 2 den.log2 * Nat.pow 2 ((num.log2 : Int) - den.log2 - 53).toNat) := by
        rw [← two_pow_add, ← two_pow_add, ← two_pow_add]
        congr 1
        omega
    _ ≤ Nat.pow 2 54 * (den * Nat.pow 2 ((num.log2 : Int) - den.log2 - 53).toNat) :=
        Nat.mul_le_mul_left _ (Nat.mul_le_mul_right _ hlow)

/-- At an exponent 53 below the difference of their sizes, a ratio has at least 53 bits. -/
theorem not_isBelow_log2 (hnum : num ≠ 0) :
    ¬ IsBelow num den 52 ((num.log2 : Int) - den.log2 - 53) := by
  have hlow : Nat.pow 2 num.log2 ≤ num := Nat.log2_self_le hnum
  have hden : den < Nat.pow 2 (den.log2 + 1) := Nat.lt_log2_self
  refine Nat.not_lt.2 ?_
  calc Nat.pow 2 52 * (den * Nat.pow 2 ((num.log2 : Int) - den.log2 - 53).toNat)
    _ ≤ Nat.pow 2 52
          * (Nat.pow 2 (den.log2 + 1) * Nat.pow 2 ((num.log2 : Int) - den.log2 - 53).toNat) :=
        Nat.mul_le_mul_left _ (Nat.mul_le_mul_right _ (Nat.le_of_lt hden))
    _ = Nat.pow 2 num.log2 * Nat.pow 2 (-((num.log2 : Int) - den.log2 - 53)).toNat := by
        rw [← two_pow_add, ← two_pow_add, ← two_pow_add]
        congr 1
        omega
    _ ≤ num * Nat.pow 2 (-((num.log2 : Int) - den.log2 - 53)).toNat :=
        Nat.mul_le_mul_right _ hlow

/-- The exponent at which a ratio has 53 bits. -/
def fittingExponent (num den : Nat) : Int :=
  let least : Int := (num.log2 : Int) - den.log2 - 53
  if IsBelow num den 53 least then least else least + 1

/-- At the fitting exponent a ratio has 53 bits. -/
theorem isBelow_fittingExponent (hnum : num ≠ 0) (hden : den ≠ 0) :
    IsBelow num den 53 (fittingExponent num den) ∧
      ¬ IsBelow num den 52 (fittingExponent num den) := by
  unfold fittingExponent
  dsimp only
  split
  · next h => exact ⟨h, not_isBelow_log2 hnum⟩
  · next h =>
    exact ⟨(isBelow_add 1).2 (isBelow_log2 hden), fun hless => h ((isBelow_add 1).1 hless)⟩

/-- The exponent at which a ratio is rounded: the fitting one, held up at the least. -/
def roundingExponent (num den : Nat) : Int :=
  max (fittingExponent num den) (-1074)

/-- The ratio rounded at that exponent. -/
def roundedRatio (num den : Nat) : Nat :=
  let ratio := scaled num den (roundingExponent num den)
  roundedQuotient ratio.1 ratio.2

/-- A ratio has at most 53 bits where it is rounded. -/
theorem isBelow_roundingExponent (hnum : num ≠ 0) (hden : den ≠ 0) :
    IsBelow num den 53 (roundingExponent num den) := by
  have hfit := (isBelow_fittingExponent hnum hden).1
  obtain ⟨k, hk⟩ : ∃ k : Nat, roundingExponent num den = fittingExponent num den + k :=
    ⟨(roundingExponent num den - fittingExponent num den).toNat, by unfold roundingExponent; omega⟩
  rw [hk, isBelow_add]
  exact hfit.mono (by omega)

/-- Rounding carries at most into a bit that a significand does not have. -/
theorem roundedRatio_le (hnum : num ≠ 0) (hden : den ≠ 0) :
    roundedRatio num den ≤ Nat.pow 2 53 := by
  have hbelow := (isBelow_iff hden).1 (isBelow_roundingExponent hnum hden)
  exact Nat.le_trans (roundedQuotient_bounds _ _).2 hbelow

/-- A ratio is rounded to all of 53 bits unless the exponent is held up. -/
theorem roundingExponent_eq (hnum : num ≠ 0) (hden : den ≠ 0)
    (h : roundedRatio num den < Nat.pow 2 52) : roundingExponent num den = -1074 := by
  have hbelow : IsBelow num den 52 (roundingExponent num den) :=
    (isBelow_iff hden).2 (Nat.lt_of_le_of_lt (roundedQuotient_bounds _ _).1 h)
  have hheld : roundingExponent num den ≠ fittingExponent num den := fun heq =>
    (isBelow_fittingExponent hnum hden).2 (heq ▸ hbelow)
  unfold roundingExponent at hheld ⊢
  omega

/-- The magnitude of a rounded ratio, whose carry moves to the exponent. -/
def ofRounded (significand : Nat) (exponent : Int) (hbits : significand ≤ Nat.pow 2 53)
    (hleast : -1074 ≤ exponent) (hfull : significand < Nat.pow 2 52 → exponent = -1074) :
    Option Magnitude :=
  if hcarry : significand = Nat.pow 2 53 then
    if hmost : exponent + 1 ≤ 971 then
      some ⟨Nat.pow 2 52, exponent + 1, by decide, by omega, hmost, fun h => absurd h (by decide)⟩
    else none
  else if hmost : exponent ≤ 971 then
    some ⟨significand, exponent, Nat.lt_of_le_of_ne hbits hcarry, hleast, hmost, hfull⟩
  else none

/-- The magnitude nearest to `num / den`, a tie to the even significand; none if it is `2 ^ 1024`
or more after rounding, or if `den` is zero. -/
def ofRatio (num den : Nat) : Option Magnitude :=
  if hnum : num = 0 then some zero
  else if hden : den = 0 then none
  else
    ofRounded (roundedRatio num den) (roundingExponent num den) (roundedRatio_le hnum hden)
      (Int.le_max_right _ _) (roundingExponent_eq hnum hden)

/-- The magnitude nearest to `num / den * 2 ^ power`. -/
def ofScaledRatio (num den : Nat) (power : Int) : Option Magnitude :=
  ofRatio (num * Nat.pow 2 power.toNat) (den * Nat.pow 2 (-power).toNat)

/-- The magnitude nearest to an integer. -/
def ofNat (n : Nat) : Option Magnitude := ofRatio n 1

/-- The magnitude nearest to `10 ^ n`. -/
def tenTo (n : Nat) : Option Magnitude := ofNat (Nat.pow 10 n)

/-- The product, rounded. -/
def mul (a b : Magnitude) : Option Magnitude :=
  ofScaledRatio (a.significand * b.significand) 1 (a.exponent + b.exponent)

/-- The quotient, rounded. -/
def div (a b : Magnitude) : Option Magnitude :=
  ofScaledRatio a.significand b.significand (a.exponent - b.exponent)

/-- The magnitude nearest to `digits * 10 ^ power`: the decimal is read exactly and rounded once.
A power so large or small that the answer is plain is not computed. -/
def ofDecimal (digits : Nat) (power : Int) : Option Magnitude :=
  if digits = 0 then
    some zero
  else
    let size := ((Nat.toDigits 10 digits).length : Int) + power
    if 310 < size then none
    else if size < -330 then some zero
    else ofRatio (digits * Nat.pow 10 power.toNat) (Nat.pow 10 (-power).toNat)

/-- The magnitude nearest to the product of an already rounded `m` and a rounded power of ten.
Powers below `10 ^ -308`, which have no accurate double, are divided by in two steps; the second
step of a third would always give zero. -/
def scaleByTen (m : Magnitude) (power : Int) : Option Magnitude :=
  if 0 ≤ power then
    if power ≤ 308 then do m.mul (← tenTo power.toNat)
    else if m.isZero then some m
    else none
  else if -308 ≤ power then do m.div (← tenTo (-power).toNat)
  else if -616 ≤ power then do (← m.div (← tenTo 308)).div (← tenTo (-power - 308).toNat)
  else some zero

end Magnitude

end EndpointTypings
