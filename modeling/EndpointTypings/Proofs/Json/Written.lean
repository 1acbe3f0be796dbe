import EndpointTypings.Proofs.Json.Integers
import EndpointTypings.Proofs.Json.Lists
import EndpointTypings.Proofs.Json.Verbatim

/-!
# What is written is a document

Both writers write texts of the grammar: what `compactChars` and `prettyChars` make of a value
spells that value as it stands, repeated names and all (`Plain.isVerbatim_compactChars`,
`Plain.isVerbatim_prettyChars`), if it does not nest too deep. Doubles are left out here, and so are
integers of more than 64 bits (`Json.Plain`). If names are distinct there is nothing to merge, and
the texts are documents of the value (`Plain.isDocument`).

The two forms differ only in the white space around items and members, so that one lemma about
pieces with commas between them serves for both (`isSequence_of_joined`).
-/

namespace EndpointTypings.Json

variable {s t : List Char} {c : Char}

/-! ## Strings -/

/-- The digit that is written for a number below sixteen is one of the grammar. -/
theorem isHexDigit_hexDigit {n : Nat} (hn : n < 16) : IsHexDigit (hexDigit n) n := by
  have hall : ∀ m < 16, "0123456789abcdef".toList[m]? = some (hexDigit m) := by decide
  exact .inl (hall n hn)

/-- The long form of a control character spells it. -/
theorem isEscape_control (hc : c.toNat < 0x20) :
    IsEscape ['u', '0', '0', hexDigit (c.toNat / 16), hexDigit (c.toNat % 16)] c := by
  have hhigh : c.toNat / 16 < 16 := by omega
  have hlow : c.toNat % 16 < 16 := by omega
  have hzero : IsHexDigit '0' 0 := .inl rfl
  -- two zeros and the two digits of the character are its code unit
  have hunit := IsUnit.mk hzero hzero (isHexDigit_hexDigit hhigh) (isHexDigit_hexDigit hlow)
  have hvalue : 0 * 0x1000 + 0 * 0x100 + c.toNat / 16 * 0x10 + c.toNat % 16 = c.toNat := by omega
  rw [hvalue] at hunit
  have hescape := IsEscape.unit hunit (by unfold IsHighSurrogate; omega)
    (by unfold IsLowSurrogate; omega)
  -- as a code unit below the surrogates it is the character itself
  rwa [Char.ofNat_toNat] at hescape

/-- An escape with a letter spells the character of the table. -/
theorem IsChars.letter {letter : Char} {cs : List Char} (he : (letter, c) ∈ escapes)
    (onward : IsChars s cs) : IsChars ('\\' :: letter :: s) (c :: cs) :=
  .escape (.letter he) onward

/-- What is written for a character spells it. -/
theorem isChars_escape {cs : List Char} (onward : IsChars s cs) :
    IsChars (escape c ++ s) (c :: cs) := by
  unfold escape
  -- seven characters have a letter, the other control characters a code unit
  split_ifs with hquote hbackslash hline htab hreturn hback hform hcontrol
  · subst hquote
    exact .letter (by decide) onward
  · subst hbackslash
    exact .letter (by decide) onward
  · subst hline
    exact .letter (by decide) onward
  · subst htab
    exact .letter (by decide) onward
  · subst hreturn
    exact .letter (by decide) onward
  · obtain rfl : c = '\x08' := Char.toNat_inj.1 hback
    exact .letter (by decide) onward
  · obtain rfl : c = '\x0c' := Char.toNat_inj.1 hform
    exact .letter (by decide) onward
  · exact .escape (isEscape_control hcontrol) onward
  · exact .plain hquote hbackslash (Nat.not_lt.1 hcontrol) onward

/-- What is written for characters spells them. -/
theorem isChars_flatMap_escape (cs : List Char) : IsChars (cs.flatMap escape) cs := by
  induction cs with
  | nil => exact .nil
  | cons c cs ih =>
    rw [List.flatMap_cons]
    exact isChars_escape ih

/-- What is written for a string spells it. -/
theorem isString_quoted (text : String) : IsString (quoted text) text := by
  have hstring := IsString.mk (isChars_flatMap_escape text.toList)
  rwa [String.ofList_toList] at hstring

/-! ## Items and members -/

section Joined

variable {α : Type} {item : List Char → α → Prop}

/-- White space may follow something padded. -/
theorem IsPadded.append_blank {a : α} (h : IsPadded item s a) (ht : IsBlank t) :
    IsPadded item (s ++ t) a := by
  cases h with
  | @mk before u behind _ hb hi ha =>
    rw [List.append_assoc, List.append_assoc]
    exact .mk hb hi (ha.append ht)

/-- White space may follow a sequence. -/
theorem IsSequence.append_blank {as : List α} (h : IsSequence item s as) (ht : IsBlank t) :
    IsSequence item (s ++ t) as := by
  induction h with
  | one hp => exact .one (hp.append_blank ht)
  | more hp _ ih =>
    rw [List.append_assoc, List.cons_append]
    exact .more hp ih

/-- White space may stand before an item. -/
theorem IsPadded.blank_append {a : α} (hs : IsBlank s) (hi : item t a) :
    IsPadded item (s ++ t) a := by
  have hpadded := IsPadded.mk hs hi (show IsBlank [] from nofun)
  rwa [List.append_nil] at hpadded

/-- Pieces with commas between them are a sequence. -/
theorem isSequence_of_joined (write : α → List Char) {join : List α → List Char}
    (one : ∀ a, join [a] = write a)
    (more : ∀ a b as, join (a :: b :: as) = write a ++ ',' :: join (b :: as))
    {a : α} {as : List α} (h : ∀ b ∈ a :: as, IsPadded item (write b) b) :
    IsSequence item (join (a :: as)) (a :: as) := by
  -- the induction is on the pieces behind the first, each with the comma before it
  induction as generalizing a with
  | nil =>
    rw [one]
    exact .one (h a List.mem_cons_self)
  | cons b as ih =>
    rw [more]
    exact .more (h a List.mem_cons_self) (ih fun c hc => h c (List.mem_cons_of_mem _ hc))

end Joined

/-- Indentation is white space. -/
theorem isBlank_newline (level : Nat) : IsBlank (newline level) := by
  intro c hc
  rcases List.mem_cons.1 hc with rfl | hc
  · exact .inr (.inl rfl)
  · exact .inl (List.eq_of_mem_replicate hc)

/-! ## Values -/

/-- A value without doubles whose arrays and objects nest at most a number of levels and whose
integers have at most 64 bits. -/
inductive Plain : Nat → Json → Prop
  /-- The null value. -/
  | null {depth : Nat} : Plain depth .null
  /-- A truth value. -/
  | bool {depth : Nat} (value : Bool) : Plain depth (.bool value)
  /-- An integer of at most 64 bits, with or without a sign. -/
  | int {depth : Nat} {value : Int} (hw : IsWord value) : Plain depth (.int value)
  /-- A string. -/
  | str {depth : Nat} (value : String) : Plain depth (.str value)
  /-- An array of values of the inner level. -/
  | arr {depth : Nat} {items : List Json} (hi : ∀ item ∈ items, Plain depth item) :
      Plain (depth + 1) (.arr items)
  /-- An object of values of the inner level. -/
  | obj {depth : Nat} {members : List (String × Json)}
      (hm : ∀ member ∈ members, Plain depth member.2) : Plain (depth + 1) (.obj members)

/-- A value without numbers whose arrays and objects nest at most a number of levels and whose
names are distinct. -/
inductive Tame : Nat → Json → Prop
  /-- The null value. -/
  | null {depth : Nat} : Tame depth .null
  /-- A truth value. -/
  | bool {depth : Nat} (value : Bool) : Tame depth (.bool value)
  /-- A string. -/
  | str {depth : Nat} (value : String) : Tame depth (.str value)
  /-- An array of values of the inner level. -/
  | arr {depth : Nat} {items : List Json} (hi : ∀ item ∈ items, Tame depth item) :
      Tame (depth + 1) (.arr items)
  /-- An object of values of the inner level. -/
  | obj {depth : Nat} {members : List (String × Json)} (hn : (Entries.names members).Nodup)
      (hm : ∀ member ∈ members, Tame depth member.2) : Tame (depth + 1) (.obj members)

/-- A value without numbers has no doubles and no long integers. -/
theorem Tame.plain {depth : Nat} {v : Json} (h : Tame depth v) : Plain depth v := by
  induction h with
  | null => exact .null
  | bool value => exact .bool value
  | str value => exact .str value
  | arr _ ih => exact .arr ih
  | obj _ _ ih => exact .obj ih

/-- The names in a value with distinct names are distinct. -/
theorem Tame.distinct {depth : Nat} {v : Json} (h : Tame depth v) : Distinct v := by
  induction h with
  | null => exact .null
  | bool value => exact .bool value
  | str value => exact .str value
  | arr _ ih => exact .arr ih
  | obj hn _ ih => exact .obj hn ih

/-- A value without parts is a value of every level. -/
theorem IsScalar.isVerbatim {v : Json} {depth : Nat} (h : IsScalar s v) : IsVerbatim depth s v := by
  cases depth with
  | zero => exact h
  | succ depth => exact .scalar h

/-- What is written for a truth value spells it. -/
theorem isScalar_bool (b : Bool) : IsScalar (scalar (.bool b)) (.bool b) := by
  cases b with
  | false => exact .false
  | true => exact .true

section Written

variable {value : List Char → Json → Prop}

/-- A name in quotes, a colon, white space and the text of a value spell a member. -/
theorem isMember_of_value {name : String} {v : Json} (hs : IsBlank s) (h : value t v) :
    IsMember value (quoted name ++ ':' :: (s ++ t)) (name, v) :=
  .mk (isString_quoted name) (show IsBlank [] from nofun) hs h

/-- What is written between the brackets of an array on one line spells its items. -/
theorem isContent_compactItems {items : List Json}
    (h : ∀ item ∈ items, value (compactChars item) item) :
    IsContent value (compactItems items) items := by
  cases items with
  | nil => exact .empty nofun
  | cons item items =>
    refine .items (isSequence_of_joined compactChars ?_ ?_ ?_)
    · exact fun a => by rw [compactItems]
    · exact fun a b as => by rw [compactItems]
    · exact fun b hb => .blank_append (s := []) nofun (h b hb)

/-- What is written between the braces of an object on one line spells its members. -/
theorem isContent_compactMembers {members : List (String × Json)}
    (h : ∀ member ∈ members, value (compactChars member.2) member.2) :
    IsContent (IsMember value) (compactMembers members) members := by
  cases members with
  | nil => exact .empty nofun
  | cons member members =>
    refine .items (isSequence_of_joined
      (fun member => quoted member.1 ++ ':' :: compactChars member.2) ?_ ?_ ?_)
    · exact fun a => by rw [compactMembers]
    · exact fun a b as => by rw [compactMembers, List.append_assoc, List.cons_append]
    · intro b hb
      exact .blank_append (s := []) nofun (isMember_of_value (s := []) nofun (h b hb))

/-- What is written between the brackets of an array over several lines spells its items. -/
theorem isContent_prettyItems {level : Nat} {item : Json} {items : List Json}
    (h : ∀ v ∈ item :: items, value (prettyChars (level + 1) v) v) :
    IsContent value (prettyItems (level + 1) (item :: items) ++ newline level)
      (item :: items) := by
  refine .items (.append_blank (isSequence_of_joined
    (fun v => newline (level + 1) ++ prettyChars (level + 1) v) ?_ ?_ ?_) (isBlank_newline level))
  · exact fun a => by rw [prettyItems]
  · exact fun a b as => by rw [prettyItems, List.append_assoc]
  · exact fun v hv => .blank_append (isBlank_newline _) (h v hv)

/-- What is written between the braces of an object over several lines spells its members. -/
theorem isContent_prettyMembers {level : Nat} {member : String × Json}
    {members : List (String × Json)}
    (h : ∀ m ∈ member :: members, value (prettyChars (level + 1) m.2) m.2) :
    IsContent (IsMember value)
      (prettyMembers (level + 1) (member :: members) ++ newline level) (member :: members) := by
  refine .items (.append_blank (isSequence_of_joined (fun m => newline (level + 1)
    ++ (quoted m.1 ++ ':' :: ([' '] ++ prettyChars (level + 1) m.2))) ?_ ?_ ?_)
    (isBlank_newline level))
  · exact fun a => by simp [prettyMembers]
  · exact fun a b as => by simp [prettyMembers]
  · have hspace : IsBlank [' '] := by simp [IsBlank]
    exact fun m hm => .blank_append (isBlank_newline _) (isMember_of_value hspace (h m hm))

variable {depth : Nat}

/-- A value is spelled, as it stands, by its text on one line. -/
theorem Plain.isVerbatim_compactChars {v : Json} (h : Plain depth v) :
    IsVerbatim depth (compactChars v) v := by
  induction h with
  | null => exact IsScalar.null.isVerbatim
  | bool b =>
    rw [compactChars]
    exact (isScalar_bool b).isVerbatim
  | int hw =>
    rw [compactChars]
    exact (isScalar_int hw).isVerbatim
  | str text =>
    rw [compactChars]
    exact (IsScalar.string (isString_quoted text)).isVerbatim
  | arr _ ih =>
    rw [compactChars]
    exact .array (isContent_compactItems ih)
  | obj _ ih =>
    rw [compactChars]
    exact .object (isContent_compactMembers ih)

/-- A value is spelled, as it stands, by its text over several lines. -/
theorem Plain.isVerbatim_prettyChars {v : Json} (h : Plain depth v) (level : Nat) :
    IsVerbatim depth (prettyChars level v) v := by
  -- the parts of a value start on lines of the next level
  induction h generalizing level with
  | null => exact IsScalar.null.isVerbatim
  | bool b =>
    rw [prettyChars]
    exact (isScalar_bool b).isVerbatim
  | int hw =>
    rw [prettyChars]
    exact (isScalar_int hw).isVerbatim
  | str text =>
    rw [prettyChars]
    exact (IsScalar.string (isString_quoted text)).isVerbatim
  | @arr depth items _ ih =>
    cases items with
    | nil =>
      rw [prettyChars]
      exact .array (s := []) (.empty nofun)
    | cons item items =>
      rw [prettyChars]
      exact .array (isContent_prettyItems fun v hv => ih v hv (level + 1))
  | @obj depth members _ ih =>
    cases members with
    | nil =>
      rw [prettyChars]
      exact .object (s := []) (.empty nofun)
    | cons member members =>
      rw [prettyChars]
      exact .object (isContent_prettyMembers fun m hm => ih m hm (level + 1))

end Written

/-- A value of any level that documents have is a document by itself. -/
theorem IsVerbatim.isVerbatimDocument {v : Json} (h : IsVerbatim maxDepth s v) :
    IsVerbatimDocument s v := by
  have hpadded := IsPadded.mk (show IsBlank [] from nofun) h (show IsBlank [] from nofun)
  rwa [List.nil_append, List.append_nil] at hpadded

/-- Both texts of a value are documents of it as it stands. -/
theorem Plain.isVerbatimDocument {v : Json} (h : Plain maxDepth v) :
    IsVerbatimDocument v.compact.toList v ∧ IsVerbatimDocument v.pretty.toList v := by
  unfold compact pretty
  rw [String.toList_ofList, String.toList_ofList]
  exact ⟨h.isVerbatim_compactChars.isVerbatimDocument,
    (h.isVerbatim_prettyChars 0).isVerbatimDocument⟩

/-- Both texts of a value with distinct names are documents of it. -/
theorem Plain.isDocument {v : Json} (h : Plain maxDepth v) (hd : Distinct v) :
    IsDocument v.compact.toList v ∧ IsDocument v.pretty.toList v :=
  ⟨isDocument_iff_verbatim.2 ⟨v, h.isVerbatimDocument.1, hd.merged_eq⟩,
    isDocument_iff_verbatim.2 ⟨v, h.isVerbatimDocument.2, hd.merged_eq⟩⟩

/-- Both texts of a value without numbers are documents of it. -/
theorem Tame.isDocument {v : Json} (h : Tame maxDepth v) :
    IsDocument v.compact.toList v ∧ IsDocument v.pretty.toList v :=
  h.plain.isDocument h.distinct

end EndpointTypings.Json
