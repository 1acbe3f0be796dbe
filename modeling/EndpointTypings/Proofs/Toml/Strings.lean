import EndpointTypings.Proofs.Json.Written
import EndpointTypings.Toml.Text
import EndpointTypings.Toml.Writer
import Mathlib.Tactic.IntervalCases
import Mathlib.Tactic.SplitIfs

/-!
# Strings of TOML as they are written

What the three forms of a text on one line are, said without the reader: characters and escapes
between quotes (`IsBasic`), plain characters between single quotes (`IsLiteral`), and, for keys,
letters and digits without quotes (`IsKey`). Each is read as the text it spells
(`stringText?_of_isBasic`, `stringText?_of_isLiteral`), and the quote that closes a string is found
where it stands, whatever follows (`basicLength_append`, `literalLength_append`).

`Toml.basicString` is one of the ways to write a text (`isBasic_basicString`).
-/

namespace EndpointTypings.Toml

/-! ## Grammar -/

/-- The letters of escapes with the characters they stand for. -/
def escapes : List (Char × Char) :=
  [('b', '\x08'), ('t', '\t'), ('n', '\n'), ('f', '\x0c'), ('r', '\r'), ('e', '\x1b'), ('"', '"'),
    ('\\', '\\')]

/-- The letters of escapes that give the code of a character, with the number of its digits. -/
def codeEscapes : List (Char × Nat) :=
  [('x', 2), ('u', 4), ('U', 8)]

/-- What follows the backslash of an escape, and the character it spells. -/
inductive IsEscape : List Char → Char → Prop
  /-- A letter. -/
  | letter {letter c : Char} (he : (letter, c) ∈ escapes) : IsEscape [letter] c
  /-- The code of the character in hexadecimal digits, the first of which weighs most. -/
  | code {letter c : Char} {digits : List Char} {values : List Nat}
      (hl : (letter, digits.length) ∈ codeEscapes)
      (hd : List.Forall₂ Json.IsHexDigit digits values)
      (hc : values.foldl (fun n value => 16 * n + value) 0 = c.toNat) :
      IsEscape (letter :: digits) c

/-- What stands between the quotes of a basic string, and the characters it spells. -/
inductive IsChars : List Char → List Char → Prop
  /-- Nothing. -/
  | nil : IsChars [] []
  /-- A character that stands for itself. -/
  | plain {c : Char} {s cs : List Char} (hc : isTextChar c = true) (hq : c ≠ '"') (hb : c ≠ '\\')
      (onward : IsChars s cs) : IsChars (c :: s) (c :: cs)
  /-- An escape. -/
  | escape {t s cs : List Char} {c : Char} (he : IsEscape t c) (onward : IsChars s cs) :
      IsChars ('\\' :: (t ++ s)) (c :: cs)

/-- A basic string on one line, with its quotes. -/
inductive IsBasic : List Char → String → Prop
  /-- Characters and escapes between two quotes. -/
  | mk {s cs : List Char} (hc : IsChars s cs) : IsBasic ('"' :: (s ++ ['"'])) (String.ofList cs)

/-- A literal string on one line, with its quotes. -/
inductive IsLiteral : List Char → String → Prop
  /-- Characters between two single quotes. -/
  | mk {s : List Char} (hc : ∀ c ∈ s, isTextChar c = true ∧ c ≠ quote) :
      IsLiteral (quote :: (s ++ [quote])) (String.ofList s)

/-- A key as it is written, and its name. -/
inductive IsKey : List Char → String → Prop
  /-- Letters, digits and lines without quotes. -/
  | bare {s : List Char} (hne : s ≠ []) (hs : ∀ c ∈ s, isBareKeyChar c = true) :
      IsKey s (String.ofList s)
  /-- A basic string. -/
  | basic {s : List Char} {name : String} (h : IsBasic s name) : IsKey s name
  /-- A literal string. -/
  | literal {s : List Char} {name : String} (h : IsLiteral s name) : IsKey s name

variable {s t digits cs : List Char} {c : Char} {text name : String}

/-! ## Escapes -/

/-- A digit of the grammar has its value. -/
theorem hexDigit?_of_isHexDigit {n : Nat} (h : Json.IsHexDigit c n) : hexDigit? c = some n := by
  have hn : n < 16 := by
    rcases h with h | h
    · exact (List.getElem?_eq_some_iff.1 h).1
    · exact (List.getElem?_eq_some_iff.1 h).1
  unfold Json.IsHexDigit at h
  interval_cases n <;> rcases h with h | h <;> cases h <;> rfl

/-- Digits have the number that their values make. -/
theorem hexValue?_of_forall₂ {values : List Nat} (h : List.Forall₂ Json.IsHexDigit digits values) :
    hexValue? digits = some (values.foldl (fun n value => 16 * n + value) 0) := by
  have hvalues : digits.mapM hexDigit? = some values := by
    induction h with
    | nil => rfl
    | cons hdigit _ ih =>
      rw [List.mapM_cons, hexDigit?_of_isHexDigit hdigit, ih]
      rfl
  rw [hexValue?, hvalues]
  rfl

/-- The code of a character is read as the character. -/
theorem unicodeEscape?_append {values : List Nat} (hd : List.Forall₂ Json.IsHexDigit digits values)
    (hc : values.foldl (fun n value => 16 * n + value) 0 = c.toNat) (rest : List Char) :
    unicodeEscape? digits.length (digits ++ rest) = some c := by
  have hvalid : c.toNat.isValidChar := c.valid
  rw [unicodeEscape?, List.take_left, hexValue?_of_forall₂ hd, hc]
  simp [hvalid]

/-- An escape is read as its character. -/
theorem escape?_append (he : IsEscape t c) (rest : List Char) :
    escape? (t ++ rest) = some (c, t.length) := by
  cases he with
  | @letter letter _ hl =>
    simp only [escapes, List.mem_cons, Prod.mk.injEq, List.not_mem_nil, or_false] at hl
    rcases hl with hl | hl | hl | hl | hl | hl | hl | hl <;> obtain ⟨rfl, rfl⟩ := hl <;> rfl
  | @code letter _ digits values hl hd hc =>
    have hread := unicodeEscape?_append hd hc rest
    simp only [codeEscapes, List.mem_cons, Prod.mk.injEq, List.not_mem_nil, or_false] at hl
    rcases hl with hl | hl | hl <;> obtain ⟨rfl, hlength⟩ := hl <;>
      simp [escape?, ← hlength, hread]

/-! ## Basic strings -/

/-- The inside of a basic string says the characters it spells. -/
theorem unescape?_of_isChars (h : IsChars s cs) : unescape? false s = some cs := by
  induction h with
  | nil => rw [unescape?]
  | plain hc hq hb _ ih =>
    rw [unescape?, if_neg hb, if_pos (by rw [hc]; rfl), ih]
    rfl
  | @escape t s cs c he _ ih =>
    rw [unescape?, if_pos rfl, if_neg (by simp), escape?_append he]
    simp only [List.drop_left, ih]
    rfl

/-- A character that is not looked at on the way to the closing quote. -/
def IsPassed (c : Char) : Prop :=
  c ≠ '\n' ∧ c ≠ '"' ∧ c ≠ '\\'

/-- Characters that are not looked at are passed one by one. -/
theorem basicLength_append_of_isPassed (ht : ∀ c ∈ t, IsPassed c) (hne : s ≠ []) :
    basicLength (t ++ s) = t.length + basicLength s := by
  induction t with
  | nil => rw [List.nil_append, List.length_nil, Nat.zero_add]
  | cons c t ih =>
    obtain ⟨⟨hn, hq, hb⟩, hrest⟩ := List.forall_mem_cons.1 ht
    obtain ⟨d, more, hmore⟩ := List.exists_cons_of_ne_nil (List.append_ne_nil_of_right_ne_nil t hne)
    rw [List.cons_append, hmore, basicLength, if_neg hn, if_neg hq, if_neg (by simp [hb]), ← hmore,
      ih hrest, List.length_cons, ← Nat.add_assoc, Nat.add_comm 1]

/-- A hexadecimal digit is passed. -/
theorem isPassed_of_isHexDigit {n : Nat} (h : Json.IsHexDigit c n) : IsPassed c := by
  have hne : ∀ d, hexDigit? d = none → c ≠ d := by
    rintro d hd rfl
    rw [hexDigit?_of_isHexDigit h] at hd
    cases hd
  exact ⟨hne _ rfl, hne _ rfl, hne _ rfl⟩

/-- An escape is passed as a whole. -/
theorem basicLength_escape (he : IsEscape t c) (hne : s ≠ []) :
    basicLength ('\\' :: (t ++ s)) = (t.length + 1) + basicLength s := by
  have hpassed : ∀ {letter digits}, t = letter :: digits → (∀ c ∈ t, IsPassed c) →
      basicLength ('\\' :: (t ++ s)) = (t.length + 1) + basicLength s := by
    rintro letter digits rfl ht
    obtain ⟨-, hq, hb⟩ := ht letter List.mem_cons_self
    rw [List.cons_append, basicLength, if_neg (by decide), if_neg (by decide),
      if_neg (by simp [hq, hb]), ← List.cons_append, basicLength_append_of_isPassed ht hne]
    omega
  cases he with
  | @letter letter _ hl =>
    -- a quote or a backslash would be looked at, but not behind a backslash
    by_cases hmark : letter = '\\' ∨ letter = '"'
    · have hmark' : (('\\' : Char) = '\\' && (letter = '\\' || letter = '"')) = true := by
        simpa using hmark
      rw [List.singleton_append, basicLength, if_neg (by decide), if_neg (by decide), if_pos hmark']
      rfl
    · have hletters : ∀ pair ∈ escapes, pair.1 ≠ '\n' := by decide
      refine hpassed rfl (List.forall_mem_singleton.2 ⟨hletters _ hl, ?_, ?_⟩)
      · exact fun heq => hmark (.inr heq)
      · exact fun heq => hmark (.inl heq)
  | @code letter _ digits values hl hd hc =>
    have hletters : ∀ pair ∈ codeEscapes, IsPassed pair.1 := by
      unfold IsPassed
      decide
    refine hpassed rfl (List.forall_mem_cons.2 ⟨hletters _ hl, fun digit hdigit => ?_⟩)
    obtain ⟨i, hi, rfl⟩ := List.getElem_of_mem hdigit
    exact isPassed_of_isHexDigit (hd.get hi (hd.length_eq ▸ hi))

/-- The quote that closes a basic string is found behind what stands in it. -/
theorem basicLength_append (h : IsChars s cs) (rest : List Char) :
    basicLength (s ++ '"' :: rest) = s.length + 1 := by
  have hne : ∀ s : List Char, s ++ '"' :: rest ≠ [] := fun s => by simp
  induction h with
  | nil => cases rest <;> rfl
  | @plain c s cs hc hq hb _ ih =>
    have hn : c ≠ '\n' := by
      rintro rfl
      exact absurd hc (by decide)
    have hpassed : ∀ d ∈ [c], IsPassed d := List.forall_mem_singleton.2 ⟨hn, hq, hb⟩
    have hstep := basicLength_append_of_isPassed hpassed (hne s)
    rw [List.singleton_append, ih] at hstep
    rw [List.cons_append, hstep, List.length_singleton, List.length_cons, Nat.add_comm 1]
  | @escape t s cs c he _ ih =>
    rw [List.cons_append, List.append_assoc, basicLength_escape he (hne s), ih]
    simp only [List.length_cons, List.length_append]
    omega

/-- What stands between two quotes is what is left when they are taken off. -/
theorem unquote?_append (mark : Char) (s : List Char) :
    unquote? [mark] (mark :: (s ++ [mark])) = some s := by
  have hsuffix : [mark].isSuffixOf (s ++ [mark]) = true := by
    rw [List.isSuffixOf_iff_suffix]
    exact List.suffix_append s [mark]
  simp [unquote?, hsuffix]

/-- A basic string says what it spells. -/
theorem stringText?_of_isBasic (h : IsBasic s text) : stringText? true false s = some text := by
  cases h with
  | @mk s cs hc => simp [stringText?, unquote?_append, unescape?_of_isChars hc]

/-! ## Literal strings -/

/-- The quote that closes a literal string is found behind what stands in it. -/
theorem literalLength_append (h : ∀ c ∈ s, isTextChar c = true ∧ c ≠ quote) (rest : List Char) :
    literalLength (s ++ quote :: rest) = s.length + 1 := by
  induction s with
  | nil => rfl
  | cons c s ih =>
    obtain ⟨⟨hc, hq⟩, hrest⟩ := List.forall_mem_cons.1 h
    have hn : c ≠ '\n' := by
      rintro rfl
      exact absurd hc (by decide)
    rw [List.cons_append, literalLength, if_neg hn, if_neg hq, ih hrest, List.length_cons,
      Nat.add_comm 1]

/-- A literal string says what it spells. -/
theorem stringText?_of_isLiteral (h : IsLiteral s text) :
    stringText? false false s = some text := by
  cases h with
  | @mk s hc =>
    have hplain : isPlain false s = true := by
      induction s with
      | nil => rfl
      | cons c s ih =>
        obtain ⟨⟨htext, -⟩, hrest⟩ := List.forall_mem_cons.1 hc
        rw [isPlain, htext, ih hrest]
        rfl
    simp [stringText?, unquote?_append, hplain]

/-! ## Written strings -/

/-- The long form of a control character spells it. -/
theorem isEscape_control (hc : c.toNat < 0x100) : IsEscape
    ['u', '0', '0', Nat.digitChar (c.toNat / 16), Nat.digitChar (c.toNat % 16)] c := by
  have hhigh : c.toNat / 16 < 16 := by omega
  have hlow : c.toNat % 16 < 16 := by omega
  have hzero : Json.IsHexDigit '0' 0 := .inl rfl
  refine .code (by simp [codeEscapes]) (.cons hzero (.cons hzero
    (.cons (Json.isHexDigit_hexDigit hhigh) (.cons (Json.isHexDigit_hexDigit hlow) .nil)))) ?_
  simp only [List.foldl_cons, List.foldl_nil]
  omega

/-- What is written for a character spells it. -/
theorem isChars_writeChar (c : Char) (onward : IsChars s cs) :
    IsChars (writeChar c ++ s) (c :: cs) := by
  unfold writeChar
  split_ifs with hquote hbackslash hline htab hreturn hcontrol
  · subst hquote
    exact .escape (t := ['"']) (.letter (by decide)) onward
  · subst hbackslash
    exact .escape (t := ['\\']) (.letter (by decide)) onward
  · subst hline
    exact .escape (t := ['n']) (.letter (by decide)) onward
  · subst htab
    exact .escape (t := ['t']) (.letter (by decide)) onward
  · subst hreturn
    exact .escape (t := ['r']) (.letter (by decide)) onward
  · have hsmall : c.toNat < 0x100 := by
      simp only [Bool.or_eq_true, decide_eq_true_eq] at hcontrol
      omega
    exact .escape (isEscape_control hsmall) onward
  · refine .plain ?_ hquote hbackslash onward
    simp only [Bool.or_eq_true, decide_eq_true_eq, not_or] at hcontrol
    simp [isTextChar, hcontrol.2, Nat.not_lt.1 hcontrol.1]

/-- A text as it is written in quotes spells the text. -/
theorem isBasic_basicString (text : String) : IsBasic (basicString text).toList text := by
  have hchars : ∀ cs : List Char, IsChars (cs.flatMap writeChar) cs := by
    intro cs
    induction cs with
    | nil => exact .nil
    | cons c cs ih => exact isChars_writeChar c ih
  have hbasic := IsBasic.mk (hchars text.toList)
  rw [String.ofList_toList] at hbasic
  rwa [basicString, String.toList_ofList]

end EndpointTypings.Toml
