import EndpointTypings.Json.Reader

/-!
# The grammar of JSON texts

What a JSON text is and which value it spells, said without a reader: white space may stand around
every value, name, comma and colon, and a value is a word, a number, a string, an array or an
object. Each relation below holds of a text, from its first to its last character, and of what the
text spells.

Three things are particular to the documents read here. Arrays and objects nest at most
`Json.maxDepth` deep, so `Json.IsValue` goes by the levels that are left. A number has to have a
value (`Numeral.value`), which one that is too large for a double does not. And an object whose
text repeats a name spells the members with repetitions merged: `Entries.Merges` says that each
name stands at the place of its first occurrence with the value of its last.
-/

namespace EndpointTypings

/-- One list of entries is another with repeated names merged: the names in order of their first
occurrence, each with the value of its last. -/
structure Entries.Merges {α : Type} (pairs merged : List (String × α)) : Prop where
  /-- The names stand in order of their first occurrence. -/
  names_eq : names merged = (names pairs).eraseDups
  /-- Each name has the value of its last occurrence. -/
  get?_eq : ∀ name, get? name merged = get? name pairs.reverse

namespace Json

/-- White space, possibly none. -/
def IsBlank (s : List Char) : Prop :=
  ∀ c ∈ s, c = ' ' ∨ c = '\n' ∨ c = '\t' ∨ c = '\r'

/-! ## Numbers -/

/-- Decimal digits, at least one. -/
def IsDigits (s : List Char) : Prop :=
  s ≠ [] ∧ ∀ c ∈ s, c.isDigit = true

/-- The digits before a point: a zero stands alone. -/
def IsWhole (s : List Char) : Prop :=
  s = ['0'] ∨ IsDigits s ∧ s.head? ≠ some '0'

/-- A point with digits, or nothing. -/
inductive IsFraction : List Char → Option (List Char) → Prop
  /-- There is no point. -/
  | absent : IsFraction [] none
  /-- Digits follow a point. -/
  | present {digits : List Char} (hd : IsDigits digits) : IsFraction ('.' :: digits) (some digits)

/-- The sign of an exponent, and whether it is a minus. -/
inductive IsSign : List Char → Bool → Prop
  /-- There is no sign. -/
  | absent : IsSign [] false
  /-- A plus. -/
  | plus : IsSign ['+'] false
  /-- A minus. -/
  | minus : IsSign ['-'] true

/-- An exponent with its sign and digits, or nothing. -/
inductive IsExponent : List Char → Option (Bool × List Char) → Prop
  /-- There is no exponent. -/
  | absent : IsExponent [] none
  /-- A letter, perhaps a sign, and digits. -/
  | present {letter : Char} {sign digits : List Char} {negative : Bool}
      (hl : letter = 'e' ∨ letter = 'E') (hs : IsSign sign negative) (hd : IsDigits digits) :
      IsExponent (letter :: (sign ++ digits)) (some (negative, digits))

/-- A number behind its minus, in its parts. -/
inductive IsUnsigned (negative : Bool) : List Char → Numeral → Prop
  /-- Whole digits, a fraction and an exponent. -/
  | mk {whole fraction exponent : List Char} {fractionDigits : Option (List Char)}
      {exponentDigits : Option (Bool × List Char)} (hw : IsWhole whole)
      (hf : IsFraction fraction fractionDigits) (he : IsExponent exponent exponentDigits) :
      IsUnsigned negative (whole ++ (fraction ++ exponent))
        ⟨negative, whole, fractionDigits, exponentDigits⟩

/-- A number, in its parts. -/
inductive IsNumeral : List Char → Numeral → Prop
  /-- A number without a minus. -/
  | plain {s : List Char} {n : Numeral} (hn : IsUnsigned false s n) : IsNumeral s n
  /-- A number with a minus. -/
  | negative {s : List Char} {n : Numeral} (hn : IsUnsigned true s n) : IsNumeral ('-' :: s) n

/-! ## Strings -/

/-- A hexadecimal digit of either case and its value. -/
def IsHexDigit (c : Char) (n : Nat) : Prop :=
  "0123456789abcdef".toList[n]? = some c ∨ "0123456789ABCDEF".toList[n]? = some c

/-- Four hexadecimal digits and the code unit they spell. -/
inductive IsUnit : List Char → Nat → Prop
  /-- The first digit weighs most. -/
  | mk {a b c d : Char} {i j k l : Nat} (ha : IsHexDigit a i) (hb : IsHexDigit b j)
      (hc : IsHexDigit c k) (hd : IsHexDigit d l) :
      IsUnit [a, b, c, d] (i * 0x1000 + j * 0x100 + k * 0x10 + l)

/-- The letters of escapes with the characters they stand for. -/
def escapes : List (Char × Char) :=
  [('"', '"'), ('\\', '\\'), ('/', '/'), ('b', '\x08'), ('f', '\x0c'), ('n', '\n'), ('r', '\r'),
    ('t', '\t')]

/-- The first half of a surrogate pair. -/
def IsHighSurrogate (unit : Nat) : Prop := 0xD800 ≤ unit ∧ unit ≤ 0xDBFF

/-- The second half of a surrogate pair. -/
def IsLowSurrogate (unit : Nat) : Prop := 0xDC00 ≤ unit ∧ unit ≤ 0xDFFF

/-- What follows the backslash of an escape, and the character it spells. -/
inductive IsEscape : List Char → Char → Prop
  /-- A letter. -/
  | letter {letter c : Char} (he : (letter, c) ∈ escapes) : IsEscape [letter] c
  /-- A code unit that is a character. -/
  | unit {digits : List Char} {unit : Nat} (hu : IsUnit digits unit)
      (hh : ¬ IsHighSurrogate unit) (hl : ¬ IsLowSurrogate unit) :
      IsEscape ('u' :: digits) (Char.ofNat unit)
  /-- The two code units of a surrogate pair. -/
  | pair {digits digits' : List Char} {high low : Nat} (hu : IsUnit digits high)
      (hu' : IsUnit digits' low) (hh : IsHighSurrogate high) (hl : IsLowSurrogate low) :
      IsEscape ('u' :: (digits ++ '\\' :: 'u' :: digits'))
        (Char.ofNat (0x10000 + (high - 0xD800) * 0x400 + (low - 0xDC00)))

/-- What stands between the quotes of a string, and the characters it spells. -/
inductive IsChars : List Char → List Char → Prop
  /-- Nothing. -/
  | nil : IsChars [] []
  /-- A character that stands for itself. -/
  | plain {c : Char} {s cs : List Char} (hq : c ≠ '"') (hb : c ≠ '\\') (hc : 0x20 ≤ c.toNat)
      (onward : IsChars s cs) : IsChars (c :: s) (c :: cs)
  /-- An escape. -/
  | escape {t s cs : List Char} {c : Char} (he : IsEscape t c) (onward : IsChars s cs) :
      IsChars ('\\' :: (t ++ s)) (c :: cs)

/-- A string in its quotes. -/
inductive IsString : List Char → String → Prop
  /-- Characters between two quotes. -/
  | mk {s cs : List Char} (hc : IsChars s cs) : IsString ('"' :: (s ++ ['"'])) (String.ofList cs)

/-! ## Values -/

/-- A value without parts. -/
inductive IsScalar : List Char → Json → Prop
  /-- The null value. -/
  | null : IsScalar ['n', 'u', 'l', 'l'] .null
  /-- The truth value true. -/
  | true : IsScalar ['t', 'r', 'u', 'e'] (.bool true)
  /-- The truth value false. -/
  | false : IsScalar ['f', 'a', 'l', 's', 'e'] (.bool false)
  /-- A number that has a value. -/
  | number {s : List Char} {n : Numeral} {value : Json} (hn : IsNumeral s n)
      (hv : n.value = some value) : IsScalar s value
  /-- A string. -/
  | string {s : List Char} {text : String} (hs : IsString s text) : IsScalar s (.str text)

section Parts

variable {α : Type}

/-- Something with white space on both sides. -/
inductive IsPadded (item : List Char → α → Prop) : List Char → α → Prop
  /-- White space may be missing on either side. -/
  | mk {before s behind : List Char} {a : α} (hb : IsBlank before) (hi : item s a)
      (ha : IsBlank behind) : IsPadded item (before ++ (s ++ behind)) a

/-- At least one item, with commas between them. -/
inductive IsSequence (item : List Char → α → Prop) : List Char → List α → Prop
  /-- A single item. -/
  | one {s : List Char} {a : α} (hi : IsPadded item s a) : IsSequence item s [a]
  /-- An item, a comma and more items. -/
  | more {s t : List Char} {a : α} {as : List α} (hi : IsPadded item s a)
      (onward : IsSequence item t as) : IsSequence item (s ++ ',' :: t) (a :: as)

/-- What stands between the brackets of an array or object. -/
inductive IsContent (item : List Char → α → Prop) : List Char → List α → Prop
  /-- Nothing but white space. -/
  | empty {s : List Char} (hb : IsBlank s) : IsContent item s []
  /-- Items. -/
  | items {s : List Char} {as : List α} (hs : IsSequence item s as) : IsContent item s as

end Parts

/-- A member of an object: a name, a colon and a value. -/
inductive IsMember (value : List Char → Json → Prop) : List Char → String × Json → Prop
  /-- White space may stand on both sides of the colon. -/
  | mk {s before behind t : List Char} {name : String} {v : Json} (hn : IsString s name)
      (hb : IsBlank before) (ha : IsBlank behind) (hv : value t v) :
      IsMember value (s ++ (before ++ ':' :: (behind ++ t))) (name, v)

/-- A value whose parts are values of an inner level. -/
inductive IsLayer (inner : List Char → Json → Prop) : List Char → Json → Prop
  /-- A value without parts. -/
  | scalar {s : List Char} {v : Json} (hs : IsScalar s v) : IsLayer inner s v
  /-- An array. -/
  | array {s : List Char} {items : List Json} (hc : IsContent inner s items) :
      IsLayer inner ('[' :: (s ++ [']'])) (.arr items)
  /-- An object, its members merged. -/
  | object {s : List Char} {members merged : List (String × Json)}
      (hc : IsContent (IsMember inner) s members) (hm : Entries.Merges members merged) :
      IsLayer inner ('\x7b' :: (s ++ ['\x7d'])) (.obj merged)

/-- A value whose arrays and objects nest at most the given number of levels. -/
def IsValue : Nat → List Char → Json → Prop
  | 0 => IsScalar
  | depth + 1 => IsLayer (IsValue depth)

/-- A document: a value with white space around it. -/
def IsDocument (s : List Char) (value : Json) : Prop :=
  IsPadded (IsValue maxDepth) s value

end Json

end EndpointTypings
