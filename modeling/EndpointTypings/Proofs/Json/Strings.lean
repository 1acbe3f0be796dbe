import EndpointTypings.Proofs.Json.Grammar
import EndpointTypings.Proofs.Steps
import Mathlib.Tactic.IntervalCases
import Mathlib.Tactic.SplitIfs

/-!
# Strings are read as they are written

`Json.readChars` reads the characters of a string up to its closing quote. It accepts what the
grammar allows between quotes (`readChars_sound`) and all of it (`readChars_append`): the
characters that stand for themselves, the escapes of one letter, and the escapes of code units, of
which the two halves of a surrogate pair make one character.
-/

namespace EndpointTypings.Json

variable {s t rest : List Char} {c : Char}

/-! ## Hexadecimal digits -/

/-- A digit of the grammar has its value. -/
theorem hexValue?_of_isHexDigit {n : Nat} (h : IsHexDigit c n) : hexValue? c = some n := by
  have hn : n < 16 := by
    rcases h with h | h
    · exact (List.getElem?_eq_some_iff.1 h).1
    · exact (List.getElem?_eq_some_iff.1 h).1
  -- each of the sixteen values has one or two digits
  unfold IsHexDigit at h
  interval_cases n <;> rcases h with h | h <;> cases h <;> rfl

/-- What has a value is a digit of the grammar. -/
theorem isHexDigit_of_hexValue? {n : Nat} (h : hexValue? c = some n) : IsHexDigit c n := by
  have hc : c.toNat < 128 := by
    simp only [hexValue?, Bool.and_eq_true, decide_eq_true_eq, Char.le_def,
      UInt32.le_iff_toNat_le] at h
    split at h
    · next hr => exact Nat.lt_of_le_of_lt hr.2 (show '9'.toNat < 128 by decide)
    · split at h
      · next hr => exact Nat.lt_of_le_of_lt hr.2 (show 'f'.toNat < 128 by decide)
      · split at h
        · next hr => exact Nat.lt_of_le_of_lt hr.2 (show 'F'.toNat < 128 by decide)
        · cases h
  -- below 128 the characters can be looked at one by one
  have hall : ∀ m < 128, ∀ n ∈ hexValue? (Char.ofNat m), IsHexDigit (Char.ofNat m) n := by
    unfold IsHexDigit
    decide +kernel
  rw [← Char.ofNat_toNat c] at h ⊢
  exact hall _ hc _ h

/-- What is read as four digits are four digits of the grammar. -/
theorem readHex_sound {unit : Nat} (h : readHex s = .ok (unit, rest)) :
    ∃ t, s = t ++ rest ∧ IsUnit t unit := by
  unfold readHex at h
  split at h
  · next a b c d rest' =>
    split at h
    · next i j k l ha hb hc hd =>
      obtain ⟨hu, rfl⟩ : ((i * 16 + j) * 16 + k) * 16 + l = unit ∧ rest' = rest := by
        simpa using h
      have hw : unit = i * 0x1000 + j * 0x100 + k * 0x10 + l := by omega
      rw [hw]
      exact ⟨[a, b, c, d], rfl, .mk (isHexDigit_of_hexValue? ha) (isHexDigit_of_hexValue? hb)
        (isHexDigit_of_hexValue? hc) (isHexDigit_of_hexValue? hd)⟩
    · cases h
  · split at h <;> cases h

/-- Four digits are read as their code unit. -/
theorem readHex_append {unit : Nat} (hu : IsUnit t unit) :
    readHex (t ++ rest) = .ok (unit, rest) := by
  cases hu with
  | @mk a b c d i j k l ha hb hc hd =>
    have hw : ((i * 16 + j) * 16 + k) * 16 + l = i * 0x1000 + j * 0x100 + k * 0x10 + l := by omega
    rw [← hw]
    simp only [List.cons_append, List.nil_append, readHex, hexValue?_of_isHexDigit ha,
      hexValue?_of_isHexDigit hb, hexValue?_of_isHexDigit hc, hexValue?_of_isHexDigit hd]

/-! ## Escapes -/

/-- A character that has to come next comes next. -/
theorem expectEscape_eq_ok_iff : expectEscape c s = .ok rest ↔ s = c :: rest := by
  cases s with
  | nil => simp [expectEscape]
  | cons d s =>
    by_cases h : d = c
    · simp [expectEscape, h]
    · simp [expectEscape, h]

/-- What is read as the escape of code units is one. -/
theorem readUnicode_sound (h : readUnicode s = .ok (c, rest)) :
    ∃ t, s = t ++ rest ∧ IsEscape ('u' :: t) c := by
  obtain ⟨⟨unit, rest₁⟩, h₁, hr⟩ := bind_eq_ok_iff.1 h
  obtain ⟨digits, rfl, hu⟩ := readHex_sound h₁
  dsimp only at hr
  split_ifs at hr with hlow hhigh
  · -- the first half of a pair
    obtain ⟨rest₂, h₂, hr₂⟩ := bind_eq_ok_iff.1 hr
    obtain ⟨rest₃, h₃, hr₃⟩ := bind_eq_ok_iff.1 hr₂
    obtain ⟨⟨second, rest₄⟩, h₄, hr₄⟩ := bind_eq_ok_iff.1 hr₃
    obtain rfl := expectEscape_eq_ok_iff.1 h₂
    obtain rfl := expectEscape_eq_ok_iff.1 h₃
    obtain ⟨digits', rfl, hu'⟩ := readHex_sound h₄
    dsimp only at hr₄
    split_ifs at hr₄ with hsecond
    obtain ⟨rfl, rfl⟩ : _ = c ∧ rest₄ = rest := by simpa [pure, Except.pure] using hr₄
    refine ⟨digits ++ '\\' :: 'u' :: digits', by simp, .pair hu hu' ?_ ?_⟩
    · simpa [IsHighSurrogate] using hhigh
    · simpa [IsLowSurrogate] using hsecond
  · obtain ⟨rfl, rfl⟩ : _ = c ∧ rest₁ = rest := by simpa [pure, Except.pure] using hr
    refine ⟨digits, rfl, .unit hu ?_ ?_⟩
    · simpa [IsHighSurrogate] using hhigh
    · simpa [IsLowSurrogate] using hlow

/-- The letters of escapes are those of the table. -/
theorem simpleEscape?_eq_some_iff {letter : Char} :
    simpleEscape? letter = some c ↔ (letter, c) ∈ escapes := by
  constructor
  · intro h
    unfold simpleEscape? at h
    split_ifs at h
    all_goals
      rw [← Option.some.inj h]
      subst letter
      simp [escapes]
  · intro h
    simp only [escapes, List.mem_cons, Prod.mk.injEq, List.not_mem_nil, or_false] at h
    rcases h with h | h | h | h | h | h | h | h <;> obtain ⟨rfl, rfl⟩ := h <;> rfl

/-- What is read as an escape is one. -/
theorem readEscape_sound (h : readEscape s = .ok (c, rest)) :
    ∃ t, s = t ++ rest ∧ IsEscape t c := by
  cases s with
  | nil => cases h
  | cons letter s =>
    simp only [readEscape] at h
    split at h
    · next hl =>
      obtain ⟨t, rfl, he⟩ := readUnicode_sound h
      exact ⟨'u' :: t, by rw [hl]; rfl, he⟩
    · split at h
      · next e he =>
        obtain ⟨rfl, rfl⟩ : e = c ∧ s = rest := by simpa using h
        exact ⟨[letter], rfl, .letter (simpleEscape?_eq_some_iff.1 he)⟩
      · cases h

/-- An escape is read as its character. -/
theorem readEscape_append (he : IsEscape t c) : readEscape (t ++ rest) = .ok (c, rest) := by
  cases he with
  | @letter letter _ hl =>
    have hu : letter ≠ 'u' := by
      rintro rfl
      simp [escapes] at hl
    simp only [List.cons_append, List.nil_append, readEscape, hu, if_false,
      simpleEscape?_eq_some_iff.2 hl]
  | @unit digits unit hu hh hl =>
    have hl' : ¬ (0xDC00 ≤ unit && unit ≤ 0xDFFF) = true := by simpa [IsLowSurrogate] using hl
    have hh' : ¬ (0xD800 ≤ unit && unit ≤ 0xDBFF) = true := by simpa [IsHighSurrogate] using hh
    rw [List.cons_append, readEscape, if_pos rfl]
    refine bind_eq_ok_iff.2 ⟨(unit, rest), readHex_append hu, ?_⟩
    simp only [if_neg hl', if_neg hh']
    rfl
  | @pair digits digits' high low hu hu' hh hl =>
    have hlow : ¬ (0xDC00 ≤ high && high ≤ 0xDFFF) = true := by
      simp only [IsHighSurrogate] at hh
      simp only [Bool.and_eq_true, decide_eq_true_eq]
      omega
    have hhigh : (0xD800 ≤ high && high ≤ 0xDBFF) = true := by simpa [IsHighSurrogate] using hh
    have hsecond : (0xDC00 ≤ low && low ≤ 0xDFFF) = true := by simpa [IsLowSurrogate] using hl
    rw [List.cons_append, readEscape, if_pos rfl, List.append_assoc]
    refine bind_eq_ok_iff.2 ⟨(high, _), readHex_append hu, ?_⟩
    simp only [if_neg hlow, if_pos hhigh]
    refine bind_eq_ok_iff.2 ⟨_, expectEscape_eq_ok_iff.2 rfl, ?_⟩
    refine bind_eq_ok_iff.2 ⟨_, expectEscape_eq_ok_iff.2 rfl, ?_⟩
    refine bind_eq_ok_iff.2 ⟨(low, rest), readHex_append hu', ?_⟩
    simp only [if_pos hsecond]
    rfl

/-! ## Characters -/

/-- What is read as the characters of a string are characters of the grammar. -/
theorem readChars_sound {steps : Nat} {read cs : List Char}
    (h : readChars steps read s = .ok (cs, rest)) :
    ∃ t more, s = t ++ '"' :: rest ∧ IsChars t more ∧ cs = read.reverse ++ more := by
  -- the induction is on the steps: a step takes a plain character or an escape, or the quote
  induction steps generalizing read s with
  | zero => simp [readChars] at h
  | succ steps ih =>
    cases s with
    | nil => simp [readChars] at h
    | cons c s =>
      rw [readChars] at h
      split_ifs at h with hq hb hc
      · obtain ⟨rfl, rfl⟩ : read.reverse = cs ∧ s = rest := by simpa using h
        exact ⟨[], [], by rw [hq]; rfl, .nil, by simp⟩
      · obtain ⟨⟨e, s'⟩, hread, h'⟩ := bind_eq_ok_iff.1 h
        obtain ⟨u, hs, he⟩ := readEscape_sound hread
        obtain ⟨t, more, rfl, ht, rfl⟩ := ih h'
        exact ⟨'\\' :: (u ++ t), e :: more, by simp [hb, hs], .escape he ht, by simp⟩
      · obtain ⟨t, more, rfl, ht, rfl⟩ := ih h
        exact ⟨c :: t, c :: more, rfl, .plain hq hb (Nat.not_lt.1 hc) ht, by simp⟩

/-- The characters of a string are read up to its quote, in as many steps as the text is long. -/
theorem readChars_append {cs : List Char} (ht : IsChars t cs) :
    ∀ {steps : Nat} {read : List Char}, t.length < steps →
      readChars steps read (t ++ '"' :: rest) = .ok (read.reverse ++ cs, rest) := by
  induction ht with
  | nil =>
    intro steps read hs
    obtain ⟨steps, rfl⟩ : ∃ n, steps = n + 1 := ⟨steps - 1, by simp at hs; omega⟩
    simp [readChars]
  | @plain c s cs hq hb hc _ ih =>
    intro steps read hs
    obtain ⟨steps, rfl⟩ : ∃ n, steps = n + 1 := ⟨steps - 1, by omega⟩
    have hs' : s.length < steps := by simpa using hs
    rw [List.cons_append, readChars, if_neg hq, if_neg hb, if_neg (Nat.not_lt.2 hc), ih hs']
    simp
  | @escape u s cs c he _ ih =>
    intro steps read hs
    obtain ⟨steps, rfl⟩ : ∃ n, steps = n + 1 := ⟨steps - 1, by omega⟩
    have hs' : s.length < steps := by
      simp only [List.length_cons, List.length_append] at hs
      omega
    rw [List.cons_append, readChars, if_neg (by decide), if_pos rfl, List.append_assoc]
    refine bind_eq_ok_iff.2 ⟨(c, s ++ '"' :: rest), readEscape_append he, ?_⟩
    refine (ih hs').trans ?_
    simp

/-- What is read as a string behind its quote is a string. -/
theorem readString_sound {steps : Nat} {text : String}
    (h : readString steps s = .ok (text, rest)) : ∃ t, '"' :: s = t ++ rest ∧ IsString t text := by
  obtain ⟨⟨cs, rest'⟩, hc, hp⟩ := map_eq_ok_iff.1 h
  obtain ⟨rfl, rfl⟩ : String.ofList cs = text ∧ rest' = rest := by simpa using hp
  obtain ⟨t, more, rfl, ht, rfl⟩ := readChars_sound hc
  exact ⟨'"' :: (t ++ ['"']), by simp, .mk ht⟩

/-- A string is read behind its quote, in as many steps as it is long. -/
theorem readString_append (rest : List Char) {steps : Nat} {text : String} (ht : IsString t text)
    (hs : t.length < steps) :
    ∃ u, t = '"' :: u ∧ readString steps (u ++ rest) = .ok (text, rest) := by
  cases ht with
  | @mk u cs hu =>
    refine ⟨u ++ ['"'], rfl, ?_⟩
    have hs' : u.length < steps := by
      simp only [List.length_cons, List.length_append] at hs
      omega
    rw [List.append_assoc]
    exact map_eq_ok_iff.2 ⟨(cs, rest), readChars_append hu hs', rfl⟩

end EndpointTypings.Json
