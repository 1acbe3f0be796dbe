import EndpointTypings.Proofs.Json.Grammar
import EndpointTypings.Proofs.Steps
import Mathlib.Data.List.TakeWhile

/-!
# Numbers are read as they are written

`Json.numeral` takes from a text the longest number it starts with. What it takes is a number of
the grammar (`numeral_sound`), and a number of the grammar is taken whole from any text in which
nothing follows that could belong to it (`numeral_append`). Each part of a number has the same two
facts, for what may follow that part.
-/

namespace EndpointTypings.Json

variable {s t rest digits : List Char} {negative : Bool}

/-- A text that does not start with a digit. -/
def NoDigitNext (rest : List Char) : Prop :=
  ∀ c ∈ rest.head?, c.isDigit = false

/-- A text that does not start with anything that could go on with a number. -/
def NoNumberNext (rest : List Char) : Prop :=
  ∀ c ∈ rest.head?, c.isDigit = false ∧ c ≠ '.' ∧ c ≠ 'e' ∧ c ≠ 'E'

/-! ## Digits -/

/-- What is taken as digits are digits. -/
theorem someDigits_sound (h : someDigits s = .ok (digits, rest)) :
    s = digits ++ rest ∧ IsDigits digits := by
  cases s with
  | nil => simp [someDigits] at h
  | cons c s =>
    simp only [someDigits] at h
    split at h
    · next hc =>
      obtain ⟨rfl, rfl⟩ : (c :: s).takeWhile Char.isDigit = digits ∧
          (c :: s).dropWhile Char.isDigit = rest := by simpa using h
      refine ⟨List.takeWhile_append_dropWhile.symm, by simp [hc], fun d hd => ?_⟩
      exact List.mem_takeWhile_imp hd
    · cases h

/-- Digits are taken whole if no digit follows. -/
theorem someDigits_append (hd : IsDigits digits) (hr : NoDigitNext rest) :
    someDigits (digits ++ rest) = .ok (digits, rest) := by
  obtain ⟨hne, hall⟩ := hd
  have htake : rest.takeWhile Char.isDigit = [] := by
    cases rest with
    | nil => rfl
    | cons c rest => simp [hr c rfl]
  have hdrop : rest.dropWhile Char.isDigit = rest := by
    cases rest with
    | nil => rfl
    | cons c rest => simp [hr c rfl]
  cases digits with
  | nil => exact absurd rfl hne
  | cons c digits =>
    have hc : c.isDigit = true := hall c List.mem_cons_self
    have hdigits : someDigits (c :: digits ++ rest)
        = .ok ((c :: digits ++ rest).takeWhile Char.isDigit,
          (c :: digits ++ rest).dropWhile Char.isDigit) := by simp [someDigits, hc]
    rw [hdigits, List.takeWhile_append_of_pos hall, List.dropWhile_append_of_pos hall, htake,
      hdrop, List.append_nil]

/-- What is taken as whole digits are whole digits. -/
theorem wholeDigits_sound (h : wholeDigits s = .ok (digits, rest)) :
    s = digits ++ rest ∧ IsWhole digits := by
  unfold wholeDigits at h
  split at h
  · next zeros =>
    have hz : digits = ['0'] ∧ zeros = rest := by
      split at h
      · simpa [eq_comm] using h
      · split at h
        · cases h
        · simpa [eq_comm] using h
    obtain ⟨rfl, rfl⟩ := hz
    exact ⟨rfl, .inl rfl⟩
  · next hz =>
    obtain ⟨rfl, hd⟩ := someDigits_sound h
    refine ⟨rfl, .inr ⟨hd, fun hh => ?_⟩⟩
    obtain ⟨digits, rfl⟩ := List.head?_eq_some_iff.1 hh
    exact hz _ rfl

/-- Whole digits are taken whole if no digit follows. -/
theorem wholeDigits_append (hd : IsWhole digits) (hr : NoDigitNext rest) :
    wholeDigits (digits ++ rest) = .ok (digits, rest) := by
  -- a zero stands alone, other digits start with no zero
  rcases hd with rfl | ⟨hd, hz⟩
  · cases rest with
    | nil => rfl
    | cons c rest =>
      have hc : c.isDigit = false := hr c rfl
      simp [wholeDigits, hc]
  · obtain ⟨c, digits', rfl⟩ := List.exists_cons_of_ne_nil hd.1
    have hc : c ≠ '0' := fun h => hz (by simp [h])
    rw [← someDigits_append hd hr]
    unfold wholeDigits
    split
    · next hs => exact absurd (List.cons.inj hs).1 hc
    · rfl

/-! ## Fractions and exponents -/

/-- What is taken as a fraction is one. -/
theorem fractionDigits_sound {fraction : Option (List Char)}
    (h : fractionDigits s = .ok (fraction, rest)) : ∃ t, s = t ++ rest ∧ IsFraction t fraction := by
  unfold fractionDigits at h
  split at h
  · next digits =>
    obtain ⟨⟨digits, rest'⟩, hs, hp⟩ := map_eq_ok_iff.1 h
    obtain ⟨rfl, rfl⟩ : some digits = fraction ∧ rest' = rest := by simpa using hp
    obtain ⟨rfl, hd⟩ := someDigits_sound hs
    exact ⟨'.' :: digits, rfl, .present hd⟩
  · obtain ⟨rfl, rfl⟩ : none = fraction ∧ s = rest := by simpa using h
    exact ⟨[], rfl, .absent⟩

/-- A fraction is taken whole if no digit and no point follow. -/
theorem fractionDigits_append {fraction : Option (List Char)} (hf : IsFraction t fraction)
    (hr : NoDigitNext rest) (hp : ∀ c ∈ rest.head?, c ≠ '.') :
    fractionDigits (t ++ rest) = .ok (fraction, rest) := by
  cases hf with
  | absent =>
    unfold fractionDigits
    split
    · next hs =>
      rw [List.nil_append] at hs
      subst hs
      exact absurd rfl (hp '.' rfl)
    · rfl
  | present hd =>
    rw [List.cons_append, fractionDigits, someDigits_append hd hr]
    rfl

/-- What is taken as a sign is one. -/
theorem exponentSign_sound (h : exponentSign s = (negative, rest)) :
    ∃ t, s = t ++ rest ∧ IsSign t negative := by
  unfold exponentSign at h
  split at h
  · obtain ⟨rfl, rfl⟩ := Prod.mk.inj h
    exact ⟨['+'], rfl, .plus⟩
  · obtain ⟨rfl, rfl⟩ := Prod.mk.inj h
    exact ⟨['-'], rfl, .minus⟩
  · obtain ⟨rfl, rfl⟩ := Prod.mk.inj h
    exact ⟨[], rfl, .absent⟩

/-- A sign is taken if digits follow. -/
theorem exponentSign_append (hs : IsSign t negative) (hd : IsDigits digits) :
    exponentSign (t ++ (digits ++ rest)) = (negative, digits ++ rest) := by
  cases hs with
  | plus => rfl
  | minus => rfl
  | absent =>
    obtain ⟨c, digits', rfl⟩ := List.exists_cons_of_ne_nil hd.1
    have hc : c.isDigit = true := hd.2 c List.mem_cons_self
    unfold exponentSign
    split
    · next h =>
      obtain rfl : c = '+' := (List.cons.inj h).1
      cases hc
    · next h =>
      obtain rfl : c = '-' := (List.cons.inj h).1
      cases hc
    · rfl

/-- What is taken as an exponent is one. -/
theorem exponentDigits_sound {exponent : Option (Bool × List Char)}
    (h : exponentDigits s = .ok (exponent, rest)) : ∃ t, s = t ++ rest ∧ IsExponent t exponent := by
  cases s with
  | nil =>
    obtain ⟨rfl, rfl⟩ : none = exponent ∧ [] = rest := by simpa [exponentDigits] using h
    exact ⟨[], rfl, .absent⟩
  | cons c s =>
    rw [exponentDigits] at h
    split at h
    · next hc =>
      cases hsign : exponentSign s with
      | mk negative after =>
        rw [hsign] at h
        obtain ⟨⟨digits, rest'⟩, hds, hp⟩ := map_eq_ok_iff.1 h
        obtain ⟨rfl, rfl⟩ : some (negative, digits) = exponent ∧ rest' = rest := by simpa using hp
        obtain ⟨sign, rfl, hs⟩ := exponentSign_sound hsign
        obtain ⟨rfl, hd⟩ := someDigits_sound hds
        exact ⟨c :: (sign ++ digits), by simp, .present (by simpa using hc) hs hd⟩
    · obtain ⟨rfl, rfl⟩ : none = exponent ∧ c :: s = rest := by simpa using h
      exact ⟨[], rfl, .absent⟩

/-- An exponent is taken whole if nothing follows that could go on with the number. -/
theorem exponentDigits_append {exponent : Option (Bool × List Char)} (he : IsExponent t exponent)
    (hr : NoNumberNext rest) : exponentDigits (t ++ rest) = .ok (exponent, rest) := by
  cases he with
  | absent =>
    cases rest with
    | nil => rfl
    | cons c rest =>
      obtain ⟨-, -, he, hE⟩ := hr c rfl
      simp [exponentDigits, he, hE]
  | @present letter sign digits negative hl hs hd =>
    have hdigits : NoDigitNext rest := fun c hc => (hr c hc).1
    have hl' : (letter = 'e' || letter = 'E') = true := by simpa using hl
    rw [List.cons_append, List.append_assoc, exponentDigits, if_pos hl',
      exponentSign_append hs hd]
    simp only [someDigits_append hd hdigits]
    rfl

/-! ## Numbers -/

/-- What is taken as a number behind its sign is one. -/
theorem numeral_sound {n : Numeral} (h : numeral negative s = .ok (n, rest)) :
    ∃ t, s = t ++ rest ∧ IsUnsigned negative t n := by
  obtain ⟨⟨whole, s₁⟩, h₁, h⟩ := bind_eq_ok_iff.1 h
  obtain ⟨⟨fraction, s₂⟩, h₂, h⟩ := bind_eq_ok_iff.1 h
  obtain ⟨⟨exponent, s₃⟩, h₃, h⟩ := bind_eq_ok_iff.1 h
  obtain ⟨rfl, rfl⟩ : ⟨negative, whole, fraction, exponent⟩ = n ∧ s₃ = rest := by
    simpa [pure, Except.pure] using h
  obtain ⟨rfl, hw⟩ := wholeDigits_sound h₁
  obtain ⟨f, rfl, hf⟩ := fractionDigits_sound h₂
  obtain ⟨e, rfl, he⟩ := exponentDigits_sound h₃
  exact ⟨whole ++ (f ++ e), by simp, .mk hw hf he⟩

/-- A number behind its sign is taken whole if nothing follows that could go on with it. -/
theorem numeral_append {n : Numeral} (hn : IsUnsigned negative t n) (hr : NoNumberNext rest) :
    numeral negative (t ++ rest) = .ok (n, rest) := by
  cases hn with
  | @mk whole fraction exponent fd ed hw hf he =>
    -- neither a digit nor a point starts what follows the fraction, nor a digit what follows
    -- the whole digits
    have hexp : ∀ c ∈ (exponent ++ rest).head?, c.isDigit = false ∧ c ≠ '.' := by
      cases he with
      | absent => exact fun c hc => ⟨(hr c hc).1, (hr c hc).2.1⟩
      | present hl hs hd =>
        rintro c hc
        obtain rfl : _ = c := by simpa using hc
        rcases hl with rfl | rfl <;> decide
    have hfrac : NoDigitNext (fraction ++ (exponent ++ rest)) := by
      cases hf with
      | absent => exact fun c hc => (hexp c hc).1
      | present hd =>
        rintro c hc
        obtain rfl : '.' = c := by simpa using hc
        decide
    refine bind_eq_ok_iff.2 ⟨(whole, fraction ++ (exponent ++ rest)), ?_, ?_⟩
    · rw [List.append_assoc, List.append_assoc]
      exact wholeDigits_append hw hfrac
    refine bind_eq_ok_iff.2 ⟨(fd, exponent ++ rest), ?_, ?_⟩
    · exact fractionDigits_append hf (fun c hc => (hexp c hc).1) fun c hc => (hexp c hc).2
    exact bind_eq_ok_iff.2 ⟨(ed, rest), exponentDigits_append he hr, rfl⟩

/-- What is read as a number behind its sign is the value of one. -/
theorem readNumber_sound {value : Json} (h : readNumber negative s = .ok (value, rest)) :
    ∃ t n, s = t ++ rest ∧ IsUnsigned negative t n ∧ n.value = some value := by
  obtain ⟨⟨n, rest'⟩, h₁, h₂⟩ := bind_eq_ok_iff.1 h
  obtain ⟨t, rfl, hn⟩ := numeral_sound h₁
  dsimp only at h₂
  split at h₂
  · next v hv =>
    obtain ⟨rfl, rfl⟩ : v = value ∧ rest' = rest := by simpa [pure, Except.pure] using h₂
    exact ⟨t, n, rfl, hn, hv⟩
  · cases h₂

/-- A number behind its sign is read as its value if nothing follows that could go on with it. -/
theorem readNumber_append {n : Numeral} {value : Json} (hn : IsUnsigned negative t n)
    (hv : n.value = some value) (hr : NoNumberNext rest) :
    readNumber negative (t ++ rest) = .ok (value, rest) := by
  refine bind_eq_ok_iff.2 ⟨(n, rest), numeral_append hn hr, ?_⟩
  simp only [hv]
  rfl

end EndpointTypings.Json
