import EndpointTypings.Double

/-!
# The shortest decimal of a double

`Magnitude.shortest` finds the decimal with the fewest digits among those that round to a given
double, and of several the one nearest to the double itself. It walks down the powers of ten and
stops at the first one with a multiple in the interval of reals that round to the double; if any
multiple of that power is in the interval, then so is one of the two neighbours of the double.

`Layout` says how such a decimal is written out, and `Layout.write` does it.
-/

namespace EndpointTypings

/-- A decimal number `digits * 10 ^ power`. -/
structure Decimal where
  /-- The digits as one number. -/
  digits : Nat
  /-- The power of ten they are multiplied with. -/
  power : Int
  deriving DecidableEq, Repr

/-- Which of two neighbours at the same distance a decimal takes. -/
inductive Tie where
  /-- The one whose last digit is even. -/
  | toEven
  /-- The larger one. -/
  | up
  deriving DecidableEq, Repr

namespace Magnitude

/-- The first power of ten, going down from `power`, with a multiple in the interval of `m`, and
that multiple. All quantities are quarters of `2 ^ exponent`, so that the ends of the interval,
half a unit away or a quarter at a power of two, are integers. -/
def shortestFrom (m : Magnitude) (tie : Tie) : Nat → Int → Decimal
  | 0, power => ⟨0, power⟩
  | steps + 1, power =>
    let quarters := Nat.pow 2 (m.exponent - 2).toNat * Nat.pow 10 (-power).toNat
    let unit := Nat.pow 2 (2 - m.exponent).toNat * Nat.pow 10 power.toNat
    let value := 4 * m.significand * quarters
    -- under a power of two the next magnitude is only half as far away
    let below := if m.significand = Nat.pow 2 52 ∧ -1074 < m.exponent then 1 else 2
    let low := (4 * m.significand - below) * quarters
    let high := (4 * m.significand + 2) * quarters
    let within (n : Nat) : Bool :=
      if m.significand % 2 = 0 then low ≤ n * unit && n * unit ≤ high
      else low < n * unit && n * unit < high
    let down := value / unit
    let rest := value % unit
    let takeDown := 2 * rest < unit || (2 * rest == unit && tie == .toEven && down % 2 == 0)
    match within down, within (down + 1) with
    | true, true => ⟨if takeDown then down else down + 1, power⟩
    | true, false => ⟨down, power⟩
    | false, true => ⟨down + 1, power⟩
    | false, false => shortestFrom m tie steps (power - 1)

/-- The shortest decimal that rounds to a magnitude. Seventeen digits always suffice, and the walk
starts at most two powers of ten above the first digit. -/
def shortest (m : Magnitude) (tie : Tie) : Decimal :=
  if m.isZero then ⟨0, 0⟩
  else
    let bits : Int := (m.significand.log2 : Int) + 1 + m.exponent
    shortestFrom m tie 24 (bits * 30103 / 100000 + 1)

end Magnitude

/-- How a shortest decimal is written. -/
structure Layout where
  /-- The neighbour taken at a tie. -/
  tie : Tie
  /-- The decimal exponents written without an exponent part: at least the first and below the
  second. With no bounds every number is written so. -/
  plain : Option (Int × Int)

/-- The text of a magnitude in a layout. Without an exponent part there is always a point with a
digit on both sides of it; with one, the first digit stands before the point, and the exponent has
its sign. -/
def Layout.write (layout : Layout) (m : Magnitude) : String :=
  let decimal := m.shortest layout.tie
  let digits := Nat.toDigits 10 decimal.digits
  let exponent : Int := decimal.power + digits.length - 1
  let plainly := match layout.plain with
    | none => true
    | some (least, bound) => m.isZero || (least ≤ exponent && exponent < bound)
  String.ofList <|
    if plainly then
      if exponent < 0 then
        '0' :: '.' :: (List.replicate (-exponent - 1).toNat '0' ++ digits)
      else
        let whole := digits.take (exponent + 1).toNat
        let part := digits.drop (exponent + 1).toNat
        whole ++ List.replicate ((exponent + 1).toNat - whole.length) '0'
          ++ '.' :: (if part.isEmpty then ['0'] else part)
    else
      let part := digits.drop 1
      digits.take 1 ++ (if part.isEmpty then [] else '.' :: part)
        ++ 'e' :: (if exponent < 0 then '-' else '+') :: Nat.toDigits 10 exponent.natAbs

/-- The text of a double in a layout: a minus before the magnitude where the sign is one. -/
def Double.write (layout : Layout) (x : Double) : String :=
  (if x.negative then "-" else "") ++ layout.write x.magnitude

end EndpointTypings
