import EndpointTypings.Json
import EndpointTypings.Json.Fault

/-!
# Reading JSON numbers

The grammar of a number is read first (`numeral`): whole digits without a leading zero, then
perhaps a point with digits, then perhaps an exponent. Its parts then give the value
(`Numeral.value`): an integer if there is neither point nor exponent and it fits 64 bits, else a
double. A double keeps the digits that fit into 64 bits and is scaled by the power of ten that the
other digits and the exponent call for, rounding at each step; a number too large for a double is
a fault, one too small is zero.
-/

namespace EndpointTypings.Json

/-- The parts of a number as it is written. -/
structure Numeral where
  /-- Whether a minus stands in front. -/
  negative : Bool
  /-- The digits before the point. -/
  whole : List Char
  /-- The digits after the point; none if there is no point. -/
  fraction : Option (List Char)
  /-- The sign and the digits of the exponent, if there is one. -/
  exponent : Option (Bool × List Char)
  deriving DecidableEq, Repr

/-- The value of a digit. -/
def digitValue (c : Char) : Nat :=
  c.toNat - '0'.toNat

/-- The value of a sequence of digits. -/
def digitsValue (digits : List Char) : Nat :=
  digits.foldl (fun n c => 10 * n + digitValue c) 0

/-- At least one digit, and what follows the digits. -/
def someDigits (s : List Char) : Except Fault (List Char × List Char) :=
  match s with
  | [] => .error (.at .endInValue s)
  | c :: _ =>
    if c.isDigit then .ok (s.takeWhile Char.isDigit, s.dropWhile Char.isDigit)
    else .error (.at .badNumber s)

/-- The digits before the point: a zero stands alone. -/
def wholeDigits (s : List Char) : Except Fault (List Char × List Char) :=
  match s with
  | '0' :: rest =>
    match rest with
    | [] => .ok (['0'], rest)
    | c :: _ => if c.isDigit then .error (.at .badNumber rest) else .ok (['0'], rest)
  | _ => someDigits s

/-- The digits after a point, if there is a point. -/
def fractionDigits : List Char → Except Fault (Option (List Char) × List Char)
  | '.' :: rest => (someDigits rest).map fun (digits, rest) => (some digits, rest)
  | s => .ok (none, s)

/-- The sign of an exponent, a plus if there is none, and what follows it. -/
def exponentSign : List Char → Bool × List Char
  | '+' :: rest => (false, rest)
  | '-' :: rest => (true, rest)
  | s => (false, s)

/-- The exponent, if there is one. -/
def exponentDigits : List Char → Except Fault (Option (Bool × List Char) × List Char)
  | [] => .ok (none, [])
  | c :: rest =>
    if c = 'e' || c = 'E' then
      let (negative, rest) := exponentSign rest
      (someDigits rest).map fun (digits, rest) => (some (negative, digits), rest)
    else .ok (none, c :: rest)

/-- A number behind its minus, if it has one. -/
def numeral (negative : Bool) (s : List Char) : Except Fault (Numeral × List Char) := do
  let (whole, s) ← wholeDigits s
  let (fraction, s) ← fractionDigits s
  let (exponent, s) ← exponentDigits s
  return (⟨negative, whole, fraction, exponent⟩, s)

/-- The leading digits whose value, joined to `n`, stays below `2 ^ 64`, and that value and how
many they are. -/
def leadingDigits : Nat → Nat → List Char → Nat × Nat
  | n, count, [] => (n, count)
  | n, count, c :: cs =>
    if 10 * n + digitValue c < Nat.pow 2 64 then leadingDigits (10 * n + digitValue c) (count + 1) cs
    else (n, count)

/-- The number of digits up to and with the first that takes an exponent above `2 ^ 31 - 1`, if
there is such a digit. -/
def overlongAt : Nat → Nat → List Char → Option Nat
  | _, _, [] => none
  | n, count, c :: cs =>
    if Nat.pow 2 31 ≤ 10 * n + digitValue c then some (count + 1)
    else overlongAt (10 * n + digitValue c) (count + 1) cs

/-- The double a numeral stands for. Whole digits that no longer fit 64 bits count as zeros;
digits after the point that no longer fit are left out. -/
def Numeral.double (n : Numeral) : Option Double :=
  let (significand, kept) := leadingDigits 0 0 n.whole
  let dropped : Int := n.whole.length - kept
  let (significand, places) := leadingDigits significand 0 (n.fraction.getD [])
  let power : Int := dropped - places
  let magnitude := match n.exponent with
    | none => (Magnitude.ofNat significand).bind (·.scaleByTen power)
    | some (negative, digits) =>
      if (overlongAt 0 0 digits).isSome then
        if significand = 0 || negative then some .zero else none
      else
        let exponent : Int := digitsValue digits
        (Magnitude.ofNat significand).bind
          (·.scaleByTen (if negative then power - exponent else power + exponent))
  magnitude.map (⟨n.negative, ·⟩)

/-- The integer a numeral stands for: it has neither point nor exponent, fits 64 bits, and is no
negative zero. -/
def Numeral.int (n : Numeral) : Option Int :=
  if n.fraction.isSome || n.exponent.isSome then none
  else
    let value := digitsValue n.whole
    if n.negative then
      if 0 < value && value ≤ Nat.pow 2 63 then some (-value) else none
    else if value < Nat.pow 2 64 then some value else none

/-- The value of a numeral. -/
def Numeral.value (n : Numeral) : Option Json :=
  match n.int with
  | some value => some (.int value)
  | none => n.double.map .double

/-- How many characters at the end of a numeral are not read when it is found too large: none,
unless the exponent has a digit too many. -/
def Numeral.unread (n : Numeral) : Nat :=
  match n.exponent with
  | none => 0
  | some (_, digits) => (overlongAt 0 0 digits).elim 0 (digits.length - ·)

/-- A number behind its minus, if it has one, as a value. -/
def readNumber (negative : Bool) (s : List Char) : Except Fault (Json × List Char) := do
  let (n, rest) ← numeral negative s
  match n.value with
  | some value => return (value, rest)
  | none => .error ⟨.numberTooLarge, Text.byteLength rest + n.unread⟩

end EndpointTypings.Json
