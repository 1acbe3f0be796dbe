import EndpointTypings.Config
import EndpointTypings.Name.Kind
import EndpointTypings.Proofs.Json.Values
import EndpointTypings.Proofs.Json.Written
import EndpointTypings.Proofs.Config.Settings
import EndpointTypings.Proofs.Json.Record
import EndpointTypings.Proofs.Path.Components

/-!
# Names and their forms

What the checks of names accept, said by the forms alone: an identifier is a start and what may
follow it (`IsIdentifierText`), and a dotted path is a list of identifiers joined by dots
(`IsJoinOf`). No dot stands in an identifier, so the text of a path is split into the identifiers it
was joined from, and there is only one such list. `isIdentifier_iff` and `isDottedPath_iff` are the
checks.

The ways in and out are the same for both kinds of name. All that is needed of a kind is that the
names made from a text are those with that text (`NameKind.coherent`). A configuration reads its
names from JSON by the same way (`Config.setJson_interfaceName`, `Config.setJson_ambientNamespace`).
-/

namespace EndpointTypings

/-! ## The forms -/

/-- A letter of ASCII. -/
def IsLetter (c : Char) : Prop :=
  ('A' ≤ c ∧ c ≤ 'Z') ∨ ('a' ≤ c ∧ c ≤ 'z')

/-- A digit of ASCII. -/
def IsDigit (c : Char) : Prop :=
  '0' ≤ c ∧ c ≤ '9'

/-- A text that is an identifier: a letter, a low line or a dollar sign, and then any number of
these and of digits. -/
def IsIdentifierText (s : String) : Prop :=
  ∃ first rest, s.toList = first :: rest ∧ (IsLetter first ∨ first = '_' ∨ first = '$') ∧
    ∀ c ∈ rest, IsLetter c ∨ IsDigit c ∨ c = '_' ∨ c = '$'

/-- A text that is a list of identifiers with a dot between each two. -/
structure IsJoinOf (parts : List String) (s : String) : Prop where
  /-- There is at least one. -/
  ne_nil : parts ≠ []
  /-- Each is an identifier. -/
  identifiers : ∀ part ∈ parts, IsIdentifierText part
  /-- They are joined by dots. -/
  joined : String.intercalate "." parts = s

variable {c : Char} {s type : String} {parts : List String}

/-- Letters are those of core. -/
theorem isAlpha_iff : c.isAlpha = true ↔ IsLetter c := by
  have hupper : c.isUpper = decide ('A' ≤ c ∧ c ≤ 'Z') := rfl
  have hlower : c.isLower = (decide ('a' ≤ c) && decide (c ≤ 'z')) := rfl
  have halpha : c.isAlpha = (c.isUpper || c.isLower) := rfl
  simp only [halpha, hupper, hlower, IsLetter, Bool.or_eq_true, Bool.and_eq_true,
    decide_eq_true_iff]

/-- Digits are those of core. -/
theorem isDigit_iff : c.isDigit = true ↔ IsDigit c := by
  have hdigit : c.isDigit = (decide ('0' ≤ c) && decide (c ≤ '9')) := rfl
  simp only [hdigit, IsDigit, Bool.and_eq_true, decide_eq_true_iff]

/-- The check of an identifier is its form. -/
theorem isIdentifier_iff : isIdentifier s.toList = true ↔ IsIdentifierText s := by
  have hstart : ∀ c, isIdentifierStart c = true ↔ IsLetter c ∨ c = '_' ∨ c = '$' := by
    intro c
    simp only [isIdentifierStart, Bool.or_eq_true, decide_eq_true_eq, isAlpha_iff, or_assoc]
  have hpart : ∀ c, isIdentifierPart c = true ↔ IsLetter c ∨ IsDigit c ∨ c = '_' ∨ c = '$' := by
    intro c
    simp only [isIdentifierPart, Char.isAlphanum, Bool.or_eq_true, decide_eq_true_eq, isAlpha_iff,
      isDigit_iff, or_assoc]
  rw [IsIdentifierText]
  cases s.toList with
  | nil => exact ⟨nofun, nofun⟩
  | cons first rest =>
    rw [isIdentifier, Bool.and_eq_true, List.all_eq_true, hstart]
    simp only [hpart]
    refine ⟨fun h => ⟨first, rest, rfl, h⟩, ?_⟩
    rintro ⟨_, _, heq, h⟩
    obtain ⟨rfl, rfl⟩ := List.cons.inj heq
    exact h

/-- There is no dot in an identifier. -/
theorem IsIdentifierText.dot_not_mem (h : IsIdentifierText s) : '.' ∉ s.toList := by
  obtain ⟨first, rest, heq, hfirst, hrest⟩ := h
  have hdot : ¬ (IsLetter '.' ∨ IsDigit '.' ∨ '.' = '_' ∨ '.' = '$') := by
    unfold IsLetter IsDigit
    decide
  rw [heq, List.mem_cons, not_or]
  refine ⟨?_, fun hm => hdot (hrest '.' hm)⟩
  rintro rfl
  exact hdot (hfirst.imp_right .inr)

/-- Pieces are put together as lists are joined. -/
theorem Text.unsplit_eq_intercalate (separator : Char) (pieces : List (List Char)) :
    unsplit separator pieces = [separator].intercalate pieces := by
  induction pieces with
  | nil => rfl
  | cons piece pieces ih =>
    cases pieces with
    | nil => rw [unsplit, List.intercalate_singleton]
    | cons next pieces =>
      rw [List.intercalate_cons_cons, ← ih, List.append_assoc]
      rfl

/-- The characters of texts that are joined by dots. -/
theorem toList_join (parts : List String) :
    (String.intercalate "." parts).toList = Text.unsplit '.' (parts.map String.toList) := by
  rw [String.toList_intercalate, Text.unsplit_eq_intercalate]
  rfl

/-- The characters of joined identifiers are split into those of the identifiers. -/
theorem IsJoinOf.split_eq (h : IsJoinOf parts s) :
    Text.split '.' s.toList = parts.map String.toList := by
  have hdot : ∀ piece ∈ parts.map String.toList, '.' ∉ piece := by
    intro piece hm
    obtain ⟨part, hpart, rfl⟩ := List.mem_map.1 hm
    exact (h.identifiers part hpart).dot_not_mem
  rw [← h.joined, toList_join, Text.split_unsplit _ hdot]
  simpa using h.ne_nil

/-- A text is a join of one list of identifiers at most. -/
theorem IsJoinOf.unique {other : List String} (h : IsJoinOf parts s) (h' : IsJoinOf other s) :
    parts = other :=
  List.map_injective_iff.2 (fun _ _ => String.toList_injective) (h.split_eq.symm.trans h'.split_eq)

/-- The check of a dotted path is its form. -/
theorem isDottedPath_iff : isDottedPath s.toList = true ↔ ∃ parts, IsJoinOf parts s := by
  rw [isDottedPath, List.all_eq_true]
  constructor
  · intro h
    have hmap : ((Text.split '.' s.toList).map String.ofList).map String.toList
        = Text.split '.' s.toList := by
      simp [List.map_map, Function.comp_def]
    refine ⟨(Text.split '.' s.toList).map String.ofList, ?_, fun part hm => ?_, ?_⟩
    · simpa using Text.split_ne_nil '.' s.toList
    · obtain ⟨piece, hpiece, rfl⟩ := List.mem_map.1 hm
      rw [← isIdentifier_iff, String.toList_ofList]
      exact h piece hpiece
    · rw [← String.toList_inj, toList_join, hmap, Text.unsplit_split]
  · rintro ⟨parts, hparts⟩ piece hm
    rw [hparts.split_eq] at hm
    obtain ⟨part, hpart, rfl⟩ := List.mem_map.1 hm
    exact isIdentifier_iff.2 (hparts.identifiers part hpart)

/-- An identifier behind a join of identifiers is one more of them. -/
theorem IsJoinOf.concat (h : IsJoinOf parts s) (htype : IsIdentifierText type) :
    IsJoinOf (parts ++ [type]) (s ++ "." ++ type) where
  ne_nil := by simp
  identifiers part hm := by
    rcases List.mem_append.1 hm with hm | hm
    · exact h.identifiers part hm
    · obtain rfl := List.mem_singleton.1 hm
      exact htype
  joined := by
    have hne : parts.map String.toList ≠ [] := by simpa using h.ne_nil
    rw [← h.joined, ← String.toList_inj, String.toList_append, String.toList_append, toList_join,
      toList_join, List.map_append, List.map_singleton, Text.unsplit_concat hne]
    simp

/-! ## The ways -/

/-- A text becomes a name in the same way wherever it comes from, and a name becomes the same text
wherever it goes; what a name is written as is read back as that name. -/
structure NameKind.Coherent {α : Type} (kind : NameKind α) : Prop where
  /-- A text is parsed as it is made a name. -/
  parse_eq : ∀ s, kind.parse s = kind.ofString s
  /-- A text is converted as it is made a name. -/
  convert_eq : ∀ s, kind.convert s = kind.ofString s
  /-- From JSON a string is read that can be made a name, and nothing else. -/
  decode_eq_ok_iff : ∀ value name,
    kind.decode value = .ok name ↔ ∃ s, value = .str s ∧ kind.ofString s = .ok name
  /-- A name that is made from a text goes out as that text. -/
  text_eq : ∀ s name, kind.ofString s = .ok name → kind.text name = s ∧ kind.display name = s ∧
    kind.toText name = s ∧ kind.encode name = .str s
  /-- A name is read back from JSON. -/
  decode_encode : ∀ name, kind.decode (kind.encode name) = .ok name
  /-- It is so too from the text of the JSON, on one line or over several. -/
  parse_encode : ∀ name, Json.parse (kind.encode name).compact = .ok (kind.encode name) ∧
    Json.parse (kind.encode name).pretty = .ok (kind.encode name)

/-- A string is read back from what is written for it. -/
theorem Json.parse_str (s : String) :
    parse (str s).compact = .ok (str s) ∧ parse (str s).pretty = .ok (str s) := by
  have htame : Tame maxDepth (str s) := .str s
  exact ⟨parse_eq_ok_iff.2 htame.isDocument.1, parse_eq_ok_iff.2 htame.isDocument.2⟩

/-- From JSON a string is read that can be made a name, and nothing else. -/
theorem NameKind.decode_eq_ok_iff {α : Type} (kind : NameKind α) (value : Json) (name : α) :
    kind.decode value = .ok name ↔ ∃ s, value = .str s ∧ kind.ofString s = .ok name := by
  rw [decode, bind_eq_ok_iff]
  have htext : ∀ s, Json.IsText value s ↔ value = .str s := by
    intro s
    constructor
    · rintro ⟨⟩
      rfl
    · rintro rfl
      exact .str s
  refine exists_congr fun s => and_congr (Json.asString_eq_ok_iff.trans (htext s)) ?_
  rw [convert]
  cases kind.ofString s with
  | ok made => simp
  | error error => simp

/-- A kind of name is coherent if the names made from a text are those with that text. -/
theorem NameKind.coherent {α : Type} {kind : NameKind α}
    (h : ∀ s name, kind.ofString s = .ok name ↔ kind.text name = s) : kind.Coherent where
  parse_eq _ := rfl
  convert_eq _ := rfl
  decode_eq_ok_iff := kind.decode_eq_ok_iff
  text_eq s name hname := by
    have htext : kind.text name = s := (h s name).1 hname
    exact ⟨htext, htext, htext, congrArg Json.str htext⟩
  decode_encode name :=
    (kind.decode_eq_ok_iff _ name).2 ⟨_, rfl, (h _ name).2 rfl⟩
  parse_encode name := Json.parse_str (kind.text name)

/-- The names of interfaces made from a text are those with that text. -/
theorem InterfaceName.ofString_eq_ok_iff {name : InterfaceName} :
    ofString s = .ok name ↔ name.text = s := by
  unfold ofString
  split_ifs with hname hempty
  · exact ⟨fun h => congrArg text (Except.ok.inj h).symm, fun h => congrArg Except.ok (ext h.symm)⟩
  · exact ⟨fun h => (by cases h), fun h => absurd (h ▸ name.isIdentifier_text) hname⟩
  · exact ⟨fun h => (by cases h), fun h => absurd (h ▸ name.isIdentifier_text) hname⟩

/-- The namespaces made from a text are those with that text. -/
theorem AmbientNamespace.ofString_eq_ok_iff {space : AmbientNamespace} :
    ofString s = .ok space ↔ space.text = s := by
  unfold ofString
  split_ifs with hspace
  · exact ⟨fun h => congrArg text (Except.ok.inj h).symm, fun h => congrArg Except.ok (ext h.symm)⟩
  · exact ⟨fun h => (by cases h), fun h => absurd (h ▸ space.isDottedPath_text) hspace⟩

/-- A setting that is made from a text as a name is, is read from JSON as the name is. -/
theorem Config.setJson_eq_decode {α : Type} {kind : NameKind α} {setting : Setting}
    {config : Config} {put : α → Config} {value : Json}
    (hset : ∀ s, config.set setting s = (kind.ofString s).map put)
    (hnull : setting = .ambientNamespace → value ≠ .null) :
    setJson setting value config = (kind.decode value).map put := by
  rw [setJson, NameKind.decode]
  · cases value.asString with
    | error mismatch => rfl
    | ok s =>
      have hconvert : kind.convert s = kind.ofString s := rfl
      simp only [bind, Except.bind, hset, hconvert]
      cases kind.ofString s <;> rfl
  · exact hnull

/-- The interface name of a configuration is read from JSON as any name is. -/
theorem Config.setJson_interfaceName (value : Json) (config : Config) :
    setJson .interfaceName value config = (InterfaceName.kind.decode value).map fun name =>
      { config with interfaceName := name } := by
  refine setJson_eq_decode (fun s => ?_) nofun
  have hkind : InterfaceName.kind.ofString s = InterfaceName.ofString s := rfl
  rw [set, hkind]
  cases InterfaceName.ofString s <;> rfl

/-- The namespace of a configuration is read from JSON as any name is, unless it is null. -/
theorem Config.setJson_ambientNamespace {value : Json} (hne : value ≠ .null) (config : Config) :
    setJson .ambientNamespace value config = (AmbientNamespace.kind.decode value).map fun space =>
      { config with ambientNamespace := some space } := by
  refine setJson_eq_decode (fun s => ?_) fun _ => hne
  have hkind : AmbientNamespace.kind.ofString s = AmbientNamespace.ofString s := rfl
  rw [set, hkind]
  cases AmbientNamespace.ofString s <;> rfl

/-- A text is the name of an interface exactly if it is an identifier, and a namespace exactly if it
is a join of identifiers, which are then its only parts. Every way in and out is the same for a name
of either kind. A type that is an identifier, qualified by a namespace, is again a namespace, with
one more part. -/
theorem names_spec :
    (∀ s, (∃ name, InterfaceName.ofString s = .ok name) ↔ IsIdentifierText s) ∧
    (∀ s, ((∃ space, AmbientNamespace.ofString s = .ok space) ↔ ∃ parts, IsJoinOf parts s) ∧
      ∀ parts other, IsJoinOf parts s → IsJoinOf other s → parts = other) ∧
    InterfaceName.kind.Coherent ∧ AmbientNamespace.kind.Coherent ∧
    ∀ (space : AmbientNamespace) (type : String), IsIdentifierText type →
      ∃ longer, AmbientNamespace.ofString (space.qualify type) = .ok longer ∧
        ∀ parts, IsJoinOf parts space.text → IsJoinOf (parts ++ [type]) longer.text := by
  refine ⟨fun s => ?_, fun s => ⟨?_, fun parts other => IsJoinOf.unique⟩,
    NameKind.coherent fun s name => InterfaceName.ofString_eq_ok_iff,
    NameKind.coherent fun s space => AmbientNamespace.ofString_eq_ok_iff,
    fun space type htype => ?_⟩
  · simp only [InterfaceName.ofString_eq_ok_iff]
    rw [← isIdentifier_iff]
    exact ⟨fun ⟨name, heq⟩ => heq ▸ name.isIdentifier_text, fun h => ⟨⟨s, h⟩, rfl⟩⟩
  · simp only [AmbientNamespace.ofString_eq_ok_iff]
    rw [← isDottedPath_iff]
    exact ⟨fun ⟨space, heq⟩ => heq ▸ space.isDottedPath_text, fun h => ⟨⟨s, h⟩, rfl⟩⟩
  · obtain ⟨parts, hparts⟩ := isDottedPath_iff.1 space.isDottedPath_text
    have hlonger : isDottedPath (space.qualify type).toList = true :=
      isDottedPath_iff.2 ⟨_, hparts.concat htype⟩
    exact ⟨⟨_, hlonger⟩, AmbientNamespace.ofString_eq_ok_iff.2 rfl,
      fun parts hparts => hparts.concat htype⟩

end EndpointTypings
