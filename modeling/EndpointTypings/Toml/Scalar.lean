import EndpointTypings.Json.Number
import EndpointTypings.Text.Pieces
import EndpointTypings.Toml.Text
import EndpointTypings.Toml.Value

/-!
# TOML values without quotes

Truth values, integers, floating point numbers, dates and times are runs of characters without
quotes. `scalar?` tells which of them a run is, and its value. What kind of number a run is, is
settled by how it starts and by the marks in it; the rules for its digits come after that. A decimal
integer with low lines is looked at only where its low lines meet other characters, so it may hold
characters that are no digits. It may then stand in a document, but it is `Scalar.unreadable`, and
so are a base without digits behind it and a number that is too large for a double.
-/

namespace EndpointTypings.Toml

/-- A digit of a base up to sixteen. -/
def isDigitOf (base : Nat) (c : Char) : Bool :=
  (hexDigit? c).any (· < base)

/-- Whether low lines part digits. A text has no low line at its ends and no two next to each
other; behind one there is a digit, and before one there is a digit too, unless there is only one
character before the first. -/
def partsDigits (isDigit : Char → Bool) (s : List Char) : Bool :=
  let parts := Text.split '_' s
  !s.contains '_'
    || (parts.all (!·.isEmpty)
      && parts.tail.all (fun part => part.head?.any isDigit)
      && parts.dropLast.all (fun part => part.length ≤ 1 || part.getLast?.any isDigit))

/-- A text without its low lines. -/
def withoutLines (s : List Char) : List Char :=
  s.filter (· ≠ '_')

/-- A sign, if there is one: whether it is a minus, and what follows it. -/
def sign : List Char → Bool × List Char
  | '+' :: rest => (false, rest)
  | '-' :: rest => (true, rest)
  | s => (false, s)

/-- An integer of a base without its sign and low lines. -/
def integer (base : Nat) (negative : Bool) (s : List Char) : Scalar :=
  if !s.isEmpty && s.all (isDigitOf base) then
    let value : Int := s.foldl (fun n c => base * n + (hexDigit? c).getD 0) 0
    .integer (if negative then -value else value)
  else .unreadable

/-- An integer of a base behind the letter that names the base. -/
def basedInteger? (base : Nat) (s : List Char) : Option Scalar :=
  if s.all (fun c => isDigitOf base c || c = '_') && partsDigits (isDigitOf base) s then
    some (integer base false (withoutLines s))
  else none

/-- Whether digits have a zero in front of them that says nothing. -/
def hasLeadingZero (s : List Char) : Bool :=
  s.head? = some '0' && 1 < (withoutLines (s.takeWhile fun c => c.isDigit || c = '_')).length

/-- The exponent at the end of a floating point number: its value, zero if there is none. -/
def exponent? : List Char → Option Int
  | [] => some 0
  | c :: rest =>
    let (negative, digits) := sign rest
    if (c = 'e' || c = 'E') && !digits.isEmpty && digits.all Char.isDigit then
      let value : Int := Json.digitsValue digits
      some (if negative then -value else value)
    else none

/-- The digits of a floating point number without its sign and low lines, and the power of ten of
the last one. There is a digit on both sides of the point, if it has one. -/
def decimal? (s : List Char) : Option Decimal := do
  let whole := s.takeWhile Char.isDigit
  if whole.isEmpty then none
  else
    match s.dropWhile Char.isDigit with
    | '.' :: rest =>
      let part := rest.takeWhile Char.isDigit
      if part.isEmpty then none
      else
        let exponent ← exponent? (rest.dropWhile Char.isDigit)
        return ⟨Json.digitsValue (whole ++ part), exponent - part.length⟩
    | rest => return ⟨Json.digitsValue whole, ← exponent? rest⟩

/-- A floating point number without its sign and low lines. -/
def float? (negative : Bool) (s : List Char) : Option Scalar := do
  let decimal ← decimal? s
  match Magnitude.ofDecimal decimal.digits decimal.power with
  | some magnitude => return .float (.finite ⟨negative, magnitude⟩)
  | none => return .unreadable

/-- A number of exactly two digits between two bounds, and what follows it. -/
def twoDigits? (least most : Nat) : List Char → Option (Nat × List Char)
  | a :: b :: rest =>
    if a.isDigit && b.isDigit then
      let value := Json.digitsValue [a, b]
      if least ≤ value && value ≤ most then some (value, rest) else none
    else none
  | _ => none

/-- What follows a character that has to come next. -/
def expectChar? (c : Char) : List Char → Option (List Char)
  | [] => none
  | d :: rest => if d = c then some rest else none

/-- The number of days of a month. -/
def daysOfMonth (year month : Nat) : Nat :=
  if month = 2 then
    if year % 4 = 0 && (year % 100 ≠ 0 || year % 400 = 0) then 29 else 28
  else if month = 4 || month = 6 || month = 9 || month = 11 then 30
  else 31

/-- What follows a date. -/
def skipDate? (s : List Char) : Option (List Char) := do
  let (century, s) ← twoDigits? 0 99 s
  let (year, s) ← twoDigits? 0 99 s
  let (month, s) ← twoDigits? 1 12 (← expectChar? '-' s)
  let (_, s) ← twoDigits? 1 (daysOfMonth (100 * century + year) month) (← expectChar? '-' s)
  return s

/-- What follows the seconds of a time, which may be left out; they may have a fraction. -/
def skipSeconds? (s : List Char) : Option (List Char) :=
  match s with
  | ':' :: rest => do
    let (_, rest) ← twoDigits? 0 60 rest
    match rest with
    | '.' :: c :: rest => if c.isDigit then some (rest.dropWhile Char.isDigit) else none
    | '.' :: [] => none
    | rest => some rest
  | rest => some rest

/-- What follows a time of day. -/
def skipTime? (s : List Char) : Option (List Char) := do
  let (_, s) ← twoDigits? 0 23 s
  let (_, s) ← twoDigits? 0 59 (← expectChar? ':' s)
  skipSeconds? s

/-- What follows the distance from universal time, which may be left out. -/
def skipOffset? (s : List Char) : Option (List Char) :=
  match s with
  | [] => some []
  | c :: rest =>
    if c = 'Z' || c = 'z' then some rest
    else if c = '+' || c = '-' then do
      let (_, rest) ← twoDigits? 0 23 rest
      let (_, rest) ← twoDigits? 0 59 (← expectChar? ':' rest)
      return rest
    else none

/-- Whether a run is a date, a time of day, or both with a letter or a space between them. -/
def isMoment (s : List Char) : Bool :=
  match skipDate? s with
  | some [] => true
  | some (c :: rest) =>
    (c = 'T' || c = 't' || c = ' ') && ((skipTime? rest).bind skipOffset?) == some []
  | none => skipTime? s == some []

/-- A character that only floating point numbers have: a point, or the letter of an exponent. -/
def isFloatMark (c : Char) : Bool :=
  c = '.' || c = 'e' || c = 'E'

/-- What a run stands for that is `value` behind its sign, where a digit or a low line comes
first. -/
def number? (s : List Char) (negative : Bool) (value : List Char) : Option Scalar :=
  let rest := value.dropWhile Char.isDigit
  if rest.head? = some '-' || rest.head? = some ':' then
    if isMoment s then some .moment else none
  else if rest.contains ' ' then none
  else if rest.any isFloatMark then
    if !hasLeadingZero value && partsDigits Char.isDigit s then
      float? negative (withoutLines value)
    else none
  else if rest.isEmpty || rest.head? = some '_' then
    if (value = ['0'] || value.head? ≠ some '0') && partsDigits (isDigitOf 16) s then
      some (integer 10 negative (withoutLines value))
    else none
  else none

/-- What a run of characters without quotes stands for. A base is named without a sign. -/
def scalar? (s : List Char) : Option Scalar :=
  let (negative, value) := sign s
  if s = ['t', 'r', 'u', 'e'] then some (.boolean true)
  else if s = ['f', 'a', 'l', 's', 'e'] then some (.boolean false)
  else if value = ['i', 'n', 'f'] then some (.float (.infinite negative))
  else if value = ['n', 'a', 'n'] then some (.float .nan)
  else
    match s with
    | '0' :: 'x' :: rest => basedInteger? 16 rest
    | '0' :: 'o' :: rest => basedInteger? 8 rest
    | '0' :: 'b' :: rest => basedInteger? 2 rest
    | _ =>
      if value.head?.any (fun c => c.isDigit || c = '_') then number? s negative value
      else none

end EndpointTypings.Toml
