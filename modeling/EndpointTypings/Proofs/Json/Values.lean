import EndpointTypings.Proofs.Entries
import EndpointTypings.Proofs.Json.Lists
import EndpointTypings.Proofs.Json.Strings

/-!
# Documents are read as they are written

`parse` accepts the documents of the grammar, with the values they spell, and nothing else
(`parse_eq_ok_iff`). The proof goes by the levels of arrays and objects that are left: if the reader
of the inner level takes the values of that level (`Reads`), then the loops over items and members
take what the grammar allows between brackets, and the reader of the level takes its values
(`reads_value`).
-/

namespace EndpointTypings.Json

variable {s t rest : List Char} {v : Json} {steps : Nat}

/-! ## Values without parts -/

/-- A word is read exactly if its letters are next. -/
theorem readWord_eq_ok_iff {value : Json} {letters : List Char} :
    readWord value letters s = .ok (v, rest) ↔ v = value ∧ s = letters ++ rest := by
  -- the letters are compared with the text one by one
  induction letters generalizing s with
  | nil => simp [readWord, eq_comm]
  | cons letter letters ih =>
    cases s with
    | nil => simp [readWord]
    | cons c s =>
      by_cases hc : c = letter
      · simp [readWord, hc, ih]
      · simp [readWord, hc]

/-- A text that starts like a value without parts: with no white space and no bracket. -/
def StartsScalar (s : List Char) : Prop :=
  ∃ c rest, s = c :: rest ∧ isSpace c = false ∧ c ∉ ['[', ']', '\x7b', '\x7d']

/-- A number behind its minus starts with a digit. -/
theorem IsUnsigned.starts {negative : Bool} {n : Numeral} (h : IsUnsigned negative s n) :
    ∃ c rest, s = c :: rest ∧ c.isDigit = true := by
  cases h with
  | @mk whole fraction exponent _ _ hw _ _ =>
    rcases hw with rfl | ⟨⟨hne, hall⟩, -⟩
    · exact ⟨'0', _, rfl, by decide⟩
    · obtain ⟨c, digits, rfl⟩ := List.exists_cons_of_ne_nil hne
      exact ⟨c, _, rfl, hall c List.mem_cons_self⟩

/-- A digit is no white space and no bracket. -/
theorem not_special_of_isDigit {c : Char} (h : c.isDigit = true) :
    isSpace c = false ∧ c ∉ ['[', ']', '\x7b', '\x7d'] := by
  constructor
  · rw [Bool.eq_false_iff]
    intro hs
    simp only [isSpace, Bool.or_eq_true, decide_eq_true_eq] at hs
    rcases hs with ((rfl | rfl) | rfl) | rfl <;> cases h
  · intro hm
    simp only [List.mem_cons, List.not_mem_nil, or_false] at hm
    rcases hm with rfl | rfl | rfl | rfl <;> cases h

/-- A value without parts cannot be taken for white space or for an array or object. -/
theorem IsScalar.starts (h : IsScalar s v) : StartsScalar s := by
  cases h with
  | null => exact ⟨'n', _, rfl, by decide, by decide⟩
  | true => exact ⟨'t', _, rfl, by decide, by decide⟩
  | false => exact ⟨'f', _, rfl, by decide, by decide⟩
  | string hs =>
    cases hs with
    | mk _ => exact ⟨'"', _, rfl, by decide, by decide⟩
  | number hn _ =>
    cases hn with
    | plain hn =>
      obtain ⟨c, rest, hs, hc⟩ := hn.starts
      exact ⟨c, rest, hs, not_special_of_isDigit hc⟩
    | negative hn => exact ⟨'-', _, rfl, by decide, by decide⟩

/-- What is read as a value without parts is one. -/
theorem readSimple_sound (h : readSimple steps s = .ok (v, rest)) :
    ∃ t, s = t ++ rest ∧ IsScalar t v := by
  cases s with
  | nil => cases h
  | cons c s =>
    simp only [readSimple] at h
    -- the first character tells which kind of value it is
    split_ifs at h with hn ht hf hq hm hd
    · obtain ⟨rfl, rfl⟩ := readWord_eq_ok_iff.1 h
      exact ⟨_, by rw [hn]; rfl, .null⟩
    · obtain ⟨rfl, rfl⟩ := readWord_eq_ok_iff.1 h
      exact ⟨_, by rw [ht]; rfl, .true⟩
    · obtain ⟨rfl, rfl⟩ := readWord_eq_ok_iff.1 h
      exact ⟨_, by rw [hf]; rfl, .false⟩
    · obtain ⟨⟨text, rest'⟩, hr, hp⟩ := map_eq_ok_iff.1 h
      obtain ⟨rfl, rfl⟩ : .str text = v ∧ rest' = rest := by simpa using hp
      obtain ⟨t, hs, ht⟩ := readString_sound hr
      exact ⟨t, by rw [hq, hs], .string ht⟩
    · obtain ⟨t, n, rfl, hn, hv⟩ := readNumber_sound h
      exact ⟨'-' :: t, by rw [hm]; rfl, .number (.negative hn) hv⟩
    · obtain ⟨t, n, hs, hn, hv⟩ := readNumber_sound h
      exact ⟨t, hs, .number (.plain hn) hv⟩

/-- A value without parts is read if nothing follows that could go on with a number. -/
theorem readSimple_append (ht : IsScalar t v) (hs : t.length < steps) (hr : NoNumberNext rest) :
    readSimple steps (t ++ rest) = .ok (v, rest) := by
  cases ht with
  | null => exact readWord_eq_ok_iff.2 ⟨rfl, rfl⟩
  | true => exact readWord_eq_ok_iff.2 ⟨rfl, rfl⟩
  | false => exact readWord_eq_ok_iff.2 ⟨rfl, rfl⟩
  | @string _ text ht =>
    obtain ⟨u, rfl, hu⟩ := readString_append rest ht hs
    exact map_eq_ok_iff.2 ⟨(text, rest), hu, rfl⟩
  | number hn hv =>
    cases hn with
    | plain hn =>
      obtain ⟨c, u, rfl, hc⟩ := hn.starts
      -- the first character is a digit, so that it is none of those that tell another value
      have hother : c ≠ 'n' ∧ c ≠ 't' ∧ c ≠ 'f' ∧ c ≠ '"' ∧ c ≠ '-' := by
        refine ⟨?_, ?_, ?_, ?_, ?_⟩ <;> (rintro rfl; cases hc)
      obtain ⟨hn', ht, hf, hq, hm⟩ := hother
      rw [← readNumber_append hn hv hr]
      simp only [List.cons_append, readSimple, hn', ht, hf, hq, hm, hc, if_false, if_true]
    | negative hn =>
      rw [← readNumber_append hn hv hr]
      rfl

/-! ## Items and members -/

section Level

variable {item : ValueReader} {value : List Char → Json → Prop}

/-- The items of an array are read by a loop. -/
theorem isLoop_readMoreItems : IsLoop ']' item (readMoreItems item) where
  isClose := .inl rfl
  zero := nofun
  succ {steps items s result} := by
    constructor
    · intro h
      rw [readMoreItems] at h
      split at h
      · cases h
      · next c rest hs =>
        split_ifs at h with hc hcomma
        · exact .inl ⟨rest, by rw [hs, hc], (Except.ok.inj h).symm⟩
        · split at h
          · cases h
          · next d rest' hs' =>
            split_ifs at h with hd
            obtain ⟨⟨a, rest''⟩, ha, h⟩ := bind_eq_ok_iff.1 h
            exact .inr ⟨rest, by rw [hs, hcomma], d, rest', a, rest'', hs', hd, ha, h⟩
    · rintro (⟨rest, hs, rfl⟩ | ⟨rest, hs, d, rest', a, rest'', hs', hd, ha, h⟩)
      · simp [readMoreItems, hs]
      · simp only [readMoreItems, hs, hs', hd, if_neg (show ¬ ',' = ']' by decide), if_true,
          if_false]
        exact bind_eq_ok_iff.2 ⟨_, ha, h⟩

/-- The members of an object are read by a loop. -/
theorem isLoop_readMoreMembers :
    IsLoop '\x7d' (readMember item steps) (readMoreMembers item steps) where
  isClose := .inr rfl
  zero := nofun
  succ {left members s result} := by
    constructor
    · intro h
      rw [readMoreMembers] at h
      split at h
      · cases h
      · next c rest hs =>
        split_ifs at h with hc hcomma
        · exact .inl ⟨rest, by rw [hs, hc], (Except.ok.inj h).symm⟩
        · split at h
          · cases h
          · next d rest' hs' =>
            split_ifs at h with hd
            obtain ⟨⟨a, rest''⟩, ha, h⟩ := bind_eq_ok_iff.1 h
            exact .inr ⟨rest, by rw [hs, hcomma], d, rest', a, rest'', hs', hd, ha, h⟩
    · rintro (⟨rest, hs, rfl⟩ | ⟨rest, hs, d, rest', a, rest'', hs', hd, ha, h⟩)
      · simp [readMoreMembers, hs]
      · simp only [readMoreMembers, hs, hs', hd, if_neg (show ¬ ',' = '\x7d' by decide), if_true,
          if_false]
        exact bind_eq_ok_iff.2 ⟨_, ha, h⟩

/-- Behind its bracket an array is closed, or an item begins. -/
theorem readItems_eq_ok_iff {items : List Json} :
    readItems item steps s = .ok (items, rest) ↔ Closes ']' [] s (items, rest) ∨
      Begins ']' item (readMoreItems item) steps [] s (items, rest) := by
  constructor
  · intro h
    rw [readItems] at h
    split at h
    · cases h
    · next c rest' hs =>
      split_ifs at h with hc
      · exact .inl ⟨rest', by rw [hs, hc], (Except.ok.inj h).symm⟩
      · obtain ⟨⟨a, rest''⟩, ha, h⟩ := bind_eq_ok_iff.1 h
        exact .inr ⟨c, rest', a, rest'', hs, hc, ha, h⟩
  · rintro (⟨rest', hs, hr⟩ | ⟨c, rest', a, rest'', hs, hc, ha, h⟩)
    · rw [hr]
      simp [readItems, hs]
    · simp only [readItems, hs, hc, if_false]
      exact bind_eq_ok_iff.2 ⟨_, ha, h⟩

/-- Behind its brace an object is closed, or a member begins. -/
theorem readMembers_eq_ok_iff {members : List (String × Json)} :
    readMembers item steps s = .ok (members, rest) ↔ Closes '\x7d' [] s (members, rest) ∨
      Begins '\x7d' (readMember item steps) (readMoreMembers item steps) steps [] s
        (members, rest) := by
  constructor
  · intro h
    rw [readMembers] at h
    split at h
    · cases h
    · next c rest' hs =>
      split_ifs at h with hc
      · exact .inl ⟨rest', by rw [hs, hc], (Except.ok.inj h).symm⟩
      · obtain ⟨⟨a, rest''⟩, ha, h⟩ := bind_eq_ok_iff.1 h
        exact .inr ⟨c, rest', a, rest'', hs, hc, ha, h⟩
  · rintro (⟨rest', hs, hr⟩ | ⟨c, rest', a, rest'', hs, hc, ha, h⟩)
    · rw [hr]
      simp [readMembers, hs]
    · simp only [readMembers, hs, hc, if_false]
      exact bind_eq_ok_iff.2 ⟨_, ha, h⟩

/-- A member is read if the values of its level are, with white space before them. -/
theorem reads_member (hr : Reads item value steps)
    (hspace : ∀ {before s : List Char}, IsBlank before → item (before ++ s) = item s) :
    Reads (readMember item steps) (IsMember value) steps where
  sound {s rest member} h := by
    unfold readMember at h
    split at h
    · next s =>
      obtain ⟨⟨name, rest₁⟩, hname, h₁⟩ := bind_eq_ok_iff.1 h
      obtain ⟨t, hs, ht⟩ := readString_sound hname
      dsimp only at h₁
      split at h₁
      · cases h₁
      · next c rest₂ hcolon =>
        split_ifs at h₁ with hc
        obtain ⟨⟨v, rest₃⟩, hv, h₂⟩ := bind_eq_ok_iff.1 h₁
        obtain ⟨rfl, rfl⟩ : (name, v) = member ∧ rest₃ = rest := by
          simpa [pure, Except.pure] using h₂
        obtain ⟨before, hb, hbefore⟩ := exists_blank rest₁
        obtain ⟨behind, u, hu, ha, hi⟩ := hr.sound hv
        refine ⟨[], t ++ (before ++ ':' :: (behind ++ u)), ?_, nofun, .mk ht hb ha hi⟩
        rw [hs, hbefore, hcolon, hc, hu]
        simp
    · cases h
  append {t rest member} ht hs hn := by
    cases ht with
    | @mk s before behind u name v hname hb ha hv =>
      simp only [List.length_append, List.length_cons] at hs
      have hlength : s.length < steps := by omega
      obtain ⟨w, rfl, hw⟩ :=
        readString_append (before ++ ':' :: (behind ++ (u ++ rest))) hname hlength
      simp only [List.append_assoc, List.cons_append, readMember]
      refine bind_eq_ok_iff.2 ⟨_, hw, ?_⟩
      simp only [skipSpace_append hb, skipSpace_cons (show isSpace ':' = false by decide), if_true]
      refine bind_eq_ok_iff.2 ⟨(v, rest), ?_, rfl⟩
      rw [hspace ha]
      exact hr.append hv (by omega) hn
  starts ht := by
    cases ht with
    | mk hname _ _ _ =>
      cases hname with
      | mk _ => exact ⟨'"', _, rfl, by decide, by decide, by decide⟩

end Level

/-! ## Values -/

/-- White space before a value is skipped. -/
theorem readValue_blank_append {depth : Nat} {before : List Char} (hb : IsBlank before) :
    readValue steps depth (before ++ s) = readValue steps depth s := by
  cases depth with
  | zero => simp only [readValue, skipSpace_append hb]
  | succ depth => simp only [readValue, skipSpace_append hb]

/-- What starts like a value without parts is read as one. -/
theorem readValue_of_startsScalar {depth : Nat} (h : StartsScalar t) :
    readValue steps depth (t ++ rest) = readSimple steps (t ++ rest) := by
  obtain ⟨c, u, rfl, hs, hc⟩ := h
  obtain ⟨hopen, -, hbrace, -⟩ : c ≠ '[' ∧ c ≠ ']' ∧ c ≠ '\x7b' ∧ c ≠ '\x7d' := by simpa using hc
  cases depth with
  | zero => simp [readValue, skipSpace_cons hs, hopen, hbrace]
  | succ depth => simp [readValue, skipSpace_cons hs, hopen, hbrace]

/-- What starts like a value without parts starts like an item. -/
theorem StartsScalar.startsItem (h : StartsScalar s) : StartsItem s := by
  obtain ⟨c, rest, hs, hspace, hc⟩ := h
  obtain ⟨-, hclose, -, hbrace⟩ : c ≠ '[' ∧ c ≠ ']' ∧ c ≠ '\x7b' ∧ c ≠ '\x7d' := by simpa using hc
  exact ⟨c, rest, hs, hspace, hclose, hbrace⟩

/-- The values without parts are the values of the last level. -/
theorem reads_scalar (steps : Nat) : Reads (readValue steps 0) IsScalar steps where
  sound {s rest v} h := by
    obtain ⟨before, hb, hbefore⟩ := exists_blank s
    rw [readValue] at h
    split at h
    · cases h
    · next c rest' hs =>
      split_ifs at h
      obtain ⟨t, ht, hi⟩ := readSimple_sound h
      exact ⟨before, t, by rw [← ht, ← hs, ← hbefore], hb, hi⟩
  append ht hs hr := by
    rw [readValue_of_startsScalar ht.starts]
    exact readSimple_append ht hs hr
  starts ht := ht.starts.startsItem

section Layer

variable {inner : List Char → Json → Prop} {depth : Nat}

/-- An array is read if the values of the inner level are. -/
theorem readValue_array (hr : Reads (readValue steps depth) inner steps) {items : List Json}
    (hc : IsContent inner t items) (hs : t.length < steps) :
    readValue steps (depth + 1) ('[' :: (t ++ ']' :: rest)) = .ok (.arr items, rest) := by
  have hitems : readItems (readValue steps depth) steps (t ++ ']' :: rest) = .ok (items, rest) :=
    readItems_eq_ok_iff.2 (isLoop_readMoreItems.content_append hr hc hs hs)
  simp only [readValue, skipSpace_cons (show isSpace '[' = false by decide), if_true]
  exact map_eq_ok_iff.2 ⟨_, hitems, rfl⟩

/-- An object is read, with its members merged, if the values of the inner level are. -/
theorem readValue_object (hr : Reads (readValue steps depth) inner steps)
    {members merged : List (String × Json)} (hc : IsContent (IsMember inner) t members)
    (hm : Entries.Merges members merged) (hs : t.length < steps) :
    readValue steps (depth + 1) ('\x7b' :: (t ++ '\x7d' :: rest)) = .ok (.obj merged, rest) := by
  have hmembers : readMembers (readValue steps depth) steps (t ++ '\x7d' :: rest)
      = .ok (members, rest) :=
    readMembers_eq_ok_iff.2
      (isLoop_readMoreMembers.content_append (reads_member hr readValue_blank_append) hc hs hs)
  simp only [readValue, skipSpace_cons (show isSpace '\x7b' = false by decide), if_true,
    if_neg (show ¬ '\x7b' = '[' by decide)]
  exact map_eq_ok_iff.2 ⟨_, hmembers, by rw [Entries.merges_iff.1 hm]⟩

/-- The values of a level are read if the values of the inner level are. -/
theorem reads_layer (hr : Reads (readValue steps depth) inner steps) :
    Reads (readValue steps (depth + 1)) (IsLayer inner) steps where
  sound {s rest v} h := by
    obtain ⟨before, hb, hbefore⟩ := exists_blank s
    rw [readValue] at h
    split at h
    · cases h
    · next c rest' hs =>
      rw [hs] at hbefore
      -- an opening bracket takes a level, anything else is a value without parts
      split_ifs at h with harray hobject
      · obtain ⟨⟨items, rest''⟩, hi, hp⟩ := map_eq_ok_iff.1 h
        obtain ⟨rfl, rfl⟩ : .arr items = v ∧ rest'' = rest := by simpa using hp
        obtain ⟨t, rfl, ht⟩ := isLoop_readMoreItems.content_sound hr (readItems_eq_ok_iff.1 hi)
        exact ⟨before, '[' :: (t ++ [']']), by rw [hbefore, harray]; simp, hb, .array ht⟩
      · obtain ⟨⟨members, rest''⟩, hm, hp⟩ := map_eq_ok_iff.1 h
        obtain ⟨rfl, rfl⟩ : .obj (Entries.merge members) = v ∧ rest'' = rest := by simpa using hp
        have hmember := reads_member hr readValue_blank_append
        obtain ⟨t, rfl, ht⟩ :=
          isLoop_readMoreMembers.content_sound hmember (readMembers_eq_ok_iff.1 hm)
        exact ⟨before, '\x7b' :: (t ++ ['\x7d']), by rw [hbefore, hobject]; simp, hb,
          .object ht (Entries.merges_iff.2 rfl)⟩
      · obtain ⟨t, ht, hi⟩ := readSimple_sound h
        exact ⟨before, t, by rw [← ht, ← hbefore], hb, .scalar hi⟩
  append {t rest v} ht hs hn := by
    cases ht with
    | scalar ht =>
      rw [readValue_of_startsScalar ht.starts]
      exact readSimple_append ht hs hn
    | @array u items hc =>
      have hlength : u.length < steps := by
        simp only [List.length_cons, List.length_append] at hs
        omega
      rw [List.cons_append, List.append_assoc]
      exact readValue_array hr hc hlength
    | @object u members merged hc hm =>
      have hlength : u.length < steps := by
        simp only [List.length_cons, List.length_append] at hs
        omega
      rw [List.cons_append, List.append_assoc]
      exact readValue_object hr hc hm hlength
  starts ht := by
    cases ht with
    | scalar ht => exact ht.starts.startsItem
    | array _ => exact ⟨'[', _, rfl, by decide, by decide, by decide⟩
    | object _ _ => exact ⟨'\x7b', _, rfl, by decide, by decide, by decide⟩

end Layer

/-- The values of every level are read. -/
theorem reads_value (steps depth : Nat) : Reads (readValue steps depth) (IsValue depth) steps := by
  induction depth with
  | zero => exact reads_scalar steps
  | succ depth ih => exact reads_layer ih

/-! ## Documents -/

/-- Characters are read as a value exactly if they are a document of that value. -/
theorem parseChars_eq_ok_iff : parseChars s = .ok v ↔ IsDocument s v := by
  have hr := reads_value (s.length + 1) maxDepth
  constructor
  · intro h
    obtain ⟨⟨value, rest⟩, hv, h⟩ := bind_eq_ok_iff.1 h
    dsimp only at h
    split at h
    · next hrest =>
      obtain rfl : value = v := Except.ok.inj h
      obtain ⟨before, t, hs, hb, ht⟩ := hr.sound hv
      obtain ⟨behind, ha, hbehind⟩ := exists_blank rest
      rw [hrest, List.append_nil] at hbehind
      rw [hs, hbehind]
      exact .mk hb ht ha
    · cases h
  · intro h
    cases h with
    | @mk before t behind _ hb ht ha =>
      -- the value is followed by nothing but white space, which ends any number
      have hnext : NoNumberNext behind := by
        rw [← List.append_nil behind]
        exact NoNumberNext.blank_append ha nofun
      have hlength : t.length < (before ++ (t ++ behind)).length + 1 := by
        simp only [List.length_append]
        omega
      refine bind_eq_ok_iff.2 ⟨(v, behind), ?_, ?_⟩
      · rw [readValue_blank_append hb]
        exact hr.append ht hlength hnext
      · have hskip : skipSpace behind = [] := by
          rw [← List.append_nil behind, skipSpace_append ha]
          rfl
        simp only [hskip]
        rfl

/-- A text is read as a value exactly if it is a document of that value. -/
theorem parse_eq_ok_iff {text : String} : parse text = .ok v ↔ IsDocument text.toList v :=
  parseChars_eq_ok_iff

end EndpointTypings.Json
