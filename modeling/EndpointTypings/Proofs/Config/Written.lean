import EndpointTypings.Proofs.Config.Document
import EndpointTypings.Proofs.Toml.Headed

/-!
# Configuration documents that are written line by line

`Config.document` is a configuration document as one writes it: the header `[generator]`, and a line
for each setting that is chosen, in any order, with its text as a basic string.
`Config.parse_document` says that it is read as the standard configuration with these settings
changed, and that a key that is no setting, or stands beside `generator`, is refused: whatever its
value is, and whatever follows. Nothing that is read is invalid.
-/

namespace EndpointTypings.Config

open Toml

/-- A setting that is chosen in a document. -/
structure Choice where
  /-- The setting. -/
  setting : Setting
  /-- The text it is given. -/
  text : String
  /-- The text as it is written. -/
  written : String

/-- Choices that a document can make: no setting is chosen twice, and each is given a text that it
allows, written as a basic string. -/
structure CanBeChosen (choices : List Choice) : Prop where
  /-- The settings are distinct. -/
  distinct : (choices.map Choice.setting).Nodup
  /-- The texts are allowed. -/
  allowed : ∀ choice ∈ choices, choice.setting.Allows choice.text
  /-- What is written spells them. -/
  written : ∀ choice ∈ choices, IsBasic choice.written.toList choice.text

/-- The document that makes choices, without a line end behind the last line. -/
def document (choices : List Choice) : String :=
  "[generator]" ++ String.join (choices.map fun choice =>
    "\n" ++ (choice.setting.key ++ " = " ++ choice.written))

/-- The text that choices give a setting. -/
def chosen? (choices : List Choice) (setting : Setting) : Option String :=
  (choices.find? (·.setting = setting)).map Choice.text

variable {choices : List Choice} {table fields : Table} {text : String} {setting : Setting}

/-! ## Lines -/

/-- The line of a choice. -/
def Choice.line (choice : Choice) : Line :=
  ⟨choice.setting.key, choice.text, choice.written⟩

/-- A document is a header with the lines of the choices. -/
theorem document_eq_headed (choices : List Choice) :
    document choices = headed "generator" (choices.map Choice.line) := by
  rw [document, headed, List.map_map]
  rfl

/-- A name of letters and lines is a key without quotes. -/
theorem isKey_of_all {name : String} (hne : name.toList ≠ [])
    (h : name.toList.all isBareKeyChar = true) : IsKey name.toList name := by
  have hkey := IsKey.bare hne (List.all_eq_true.1 h)
  rwa [String.ofList_toList] at hkey

/-- The keys of settings need no quotes. -/
theorem Setting.isKey_key (setting : Setting) : IsKey setting.key.toList setting.key := by
  cases setting <;> exact isKey_of_all (by decide) (by decide)

/-- The key of a configuration needs no quotes. -/
theorem isKey_generator : IsKey "generator".toList "generator" :=
  isKey_of_all (by decide) (by decide)

/-- The lines of choices are written as lines are. -/
theorem CanBeChosen.isWritten (h : CanBeChosen choices) :
    ∀ line ∈ choices.map Choice.line, line.IsWritten := by
  rw [List.forall_mem_map]
  exact fun choice hchoice => ⟨choice.setting.isKey_key, h.written choice hchoice⟩

/-- The lines of choices have distinct keys. -/
theorem CanBeChosen.nodup_names (h : CanBeChosen choices) :
    ((choices.map Choice.line).map Line.name).Nodup := by
  have hkeys : (choices.map Choice.line).map Line.name
      = (choices.map Choice.setting).map Setting.key := by
    rw [List.map_map, List.map_map]
    rfl
  rw [hkeys]
  exact List.Pairwise.map Setting.key (fun _ _ hne heq => hne (Setting.key_inj heq)) h.distinct

/-! ## What is chosen -/

/-- A table of the lines sets what is chosen. -/
theorem textUnder?_of_gives (h : List.Forall₂ Line.Gives (choices.map Choice.line) fields)
    (setting : Setting) : textUnder? (fields.map fun entry => (entry.1, entry.2.2)) setting
      = chosen? choices setting := by
  induction choices generalizing fields with
  | nil =>
    cases h
    rfl
  | cons choice choices ih =>
    obtain ⟨entry, fields, ⟨hname, span, hvalue⟩, hrest, rfl⟩ := List.forall₂_cons_left_iff.1 h
    have hname' : entry.1 = choice.setting.key := hname
    rw [List.map_cons, textUnder?, Entries.get?, chosen?, List.find?_cons]
    by_cases hsetting : choice.setting = setting
    · rw [if_pos (hname'.trans (congrArg _ hsetting)), Option.bind_some, hvalue]
      simp [hsetting, valueText?, Choice.line]
    · have hkey : entry.1 ≠ setting.key := fun heq =>
        hsetting (Setting.key_inj (hname'.symm.trans heq))
      rw [if_neg hkey]
      simp only [hsetting, decide_false]
      exact ih hrest

/-- A table of the lines holds nothing but settings. -/
theorem isSetting_of_gives (h : ∀ choice ∈ choices, choice.setting.Allows choice.text)
    (hgives : List.Forall₂ Line.Gives (choices.map Choice.line) fields) :
    ∀ entry ∈ fields, IsSetting (entry.1, entry.2.2) := by
  induction choices generalizing fields with
  | nil =>
    cases hgives
    exact List.forall_mem_nil _
  | cons choice choices ih =>
    obtain ⟨hallows, hothers⟩ := List.forall_mem_cons.1 h
    obtain ⟨entry, fields, ⟨hname, span, hvalue⟩, hrest, rfl⟩ := List.forall₂_cons_left_iff.1 hgives
    refine List.forall_mem_cons.2 ⟨⟨choice.setting, choice.text, hname.symm, ?_, hallows⟩,
      ih hothers hrest⟩
    rw [hvalue]
    rfl

/-- A document of choices is read, and sets what is chosen. -/
theorem exists_parse_document (h : CanBeChosen choices) {ending : String}
    (hending : ending = "" ∨ ending = "\n") : ∃ made,
      parse (document choices ++ ending) = .ok made ∧ HasTexts (chosen? choices) standard made := by
  obtain ⟨place, span, fields, htable, hgives⟩ :=
    parse_headed isKey_generator h.isWritten h.nodup_names hending
  rw [← document_eq_headed] at htable
  have hsettings : IsSettings (.table span .header fields) :=
    ⟨fun _ _ heq => (by cases heq), List.forall_mem_map.2 (isSetting_of_gives h.allowed hgives)⟩
  obtain ⟨made, hmade⟩ := exists_parse_of_isDocument htable (.settings hsettings)
  obtain ⟨table, htable', -, htexts⟩ := parse_eq_ok_iff.1 hmade
  obtain rfl := Except.ok.inj (htable.symm.trans htable')
  refine ⟨made, hmade, fun setting => ?_⟩
  rw [htexts setting, textIn?]
  exact congrArg (Option.or · _) (textUnder?_of_gives hgives setting)

/-! ## What is refused -/

/-- A text is refused with an error about the configuration. -/
def IsRefused (text : String) : Prop :=
  ∃ reason, parse text = .error (.configuration reason)

/-- A text is refused if no table it is the document of is a configuration. -/
theorem isRefused_of_not_isDocument
    (h : ∀ table, Toml.parse text = .ok table → ¬ IsDocument table) : IsRefused text := by
  cases hparse : parse text with
  | ok made =>
    obtain ⟨table, htable, hdocument, -⟩ := parse_eq_ok_iff.1 hparse
    exact absurd hdocument (h table htable)
  | error error =>
    obtain ⟨reason, rfl⟩ := configuration_of_parse hparse
    exact ⟨reason, hparse⟩

/-- The only name in a configuration is `generator`. -/
theorem not_isDocument_of_mem_names {name : String} (hmem : name ∈ Entries.names table)
    (hname : name ≠ "generator") : ¬ IsDocument table := by
  intro h
  cases h with
  | empty => cases hmem
  | settings => exact hname (List.mem_singleton.1 hmem)

/-- The names in the table of a configuration are keys of settings. -/
theorem not_isDocument_of_get? {place span : Span} {kind : TableKind} {name : String}
    (hget : Entries.get? "generator" table = some (place, .table span kind fields))
    (hmem : name ∈ Entries.names fields) (hname : name ∉ settingKeys) : ¬ IsDocument table := by
  intro h
  cases h with
  | empty => cases hget
  | @settings place' value hvalue =>
    obtain rfl : value = .table span kind fields := by
      simpa [Entries.get?] using congrArg (Option.map Prod.snd) hget
    obtain ⟨entry, hentry, rfl⟩ := List.mem_map.1 hmem
    obtain ⟨setting, -, hkey, -⟩ := hvalue.2 _ (List.mem_map_of_mem hentry)
    refine hname (List.mem_map.2 ⟨setting, ?_, hkey⟩)
    cases setting <;> decide

/-! ## Documents -/

/-- A document of choices is read as the standard configuration with what is chosen changed. Another
key below its lines is refused, whatever follows it, and so is a header with another key; so is a
text that starts with another key or header, and whatever else defines such a key. What is read is
valid, with names of their form. -/
theorem parse_document :
    (∀ choices, CanBeChosen choices →
      (∀ ending, ending = "" ∨ ending = "\n" → ∃ made,
        parse (document choices ++ ending) = .ok made ∧
          HasTexts (chosen? choices) standard made) ∧
      ∀ written key rest, IsKey written.toList key → EndsWord rest.toList →
        (key ∉ settingKeys → IsRefused (document choices ++ "\n" ++ (written ++ rest))) ∧
        (key ≠ "generator" → ∀ opening, opening = "[" ∨ opening = "[[" →
          IsRefused (document choices ++ "\n" ++ (opening ++ written ++ rest)))) ∧
    (∀ opening written key rest, opening = "" ∨ opening = "[" ∨ opening = "[[" →
      IsKey written.toList key → EndsWord rest.toList → key ≠ "generator" →
        IsRefused (opening ++ written ++ rest)) ∧
    (∀ text table, Toml.parse text = .ok table →
      ((∃ name ∈ Entries.names table, name ≠ "generator") ∨
        ∃ place span kind fields,
          Entries.get? "generator" table = some (place, .table span kind fields) ∧
            ∃ name ∈ Entries.names fields, name ∉ settingKeys) → IsRefused text) ∧
    ∀ text made, parse text = .ok made → made.validate = .ok () ∧
      ∀ setting value, made.text? setting = some value → setting.Allows value := by
  refine ⟨fun choices h => ⟨fun ending hending => exists_parse_document h hending, ?_⟩, ?_, ?_, ?_⟩
  · intro written key rest hwritten hrest
    rw [document_eq_headed]
    constructor
    · intro hkey
      refine isRefused_of_not_isDocument fun table htable => ?_
      obtain ⟨place, span, fields, hget, hmem⟩ :=
        hasField_of_parse_headed isKey_generator h.isWritten hwritten hrest htable
      exact not_isDocument_of_get? hget hmem hkey
    · intro hkey opening hopening
      refine isRefused_of_not_isDocument fun table htable => ?_
      exact not_isDocument_of_mem_names (mem_names_of_parse_headed isKey_generator h.isWritten
        hopening hwritten hrest htable) hkey
  · intro opening written key rest hopening hwritten hrest hkey
    refine isRefused_of_not_isDocument fun table htable => ?_
    exact not_isDocument_of_mem_names (mem_names_of_parse hopening hwritten hrest htable) hkey
  · intro text table htable h
    refine isRefused_of_not_isDocument fun table' htable' => ?_
    obtain rfl := Except.ok.inj (htable.symm.trans htable')
    rcases h with ⟨name, hmem, hname⟩ | ⟨place, span, kind, fields, hget, name, hmem, hname⟩
    · exact not_isDocument_of_mem_names hmem hname
    · exact not_isDocument_of_get? hget hmem hname
  · intro text made h
    exact ⟨validate_of_parse h, fun setting value => allows_of_text? (validate_of_parse h)⟩

/-- Two choices, not in the order of their settings, with characters that are escaped. -/
def escapedChoices : List Choice :=
  [⟨.defaultOutputDir, " \u00fc\x01", basicString " \u00fc\x01"⟩,
    ⟨.headerDescription, "\"*\\/\"\n", basicString "\"*\\/\"\n"⟩]

/-- The choices are read back, and other keys below and above them are refused. -/
theorem parse_document_escapedChoices : CanBeChosen escapedChoices ∧
    (∃ made, parse (document escapedChoices ++ "\n") = .ok made ∧
      HasTexts (chosen? escapedChoices) standard made) ∧
    IsRefused (document escapedChoices ++ "\n" ++ (basicString "indent" ++ " = [\n2]\n")) ∧
    IsRefused (document escapedChoices ++ "\n" ++ ("[[" ++ "generators" ++ "]]")) ∧
    IsRefused ("" ++ "indent" ++ (" = 2\n" ++ document escapedChoices)) := by
  have hchoices : CanBeChosen escapedChoices := by
    refine ⟨by decide, ?_, ?_⟩
    · simp only [escapedChoices, List.forall_mem_cons, Setting.Allows]
      exact ⟨by decide, by decide, List.forall_mem_nil _⟩
    · simp only [escapedChoices, List.forall_mem_cons]
      exact ⟨isBasic_basicString _, isBasic_basicString _, List.forall_mem_nil _⟩
  have hends : ∀ rest : String, (rest.toList.head? = some ' ' ∨ rest.toList.head? = some ']') →
      EndsWord rest.toList := by
    rintro rest (hhead | hhead) c hc <;> obtain rfl := Option.some.inj (hhead.symm.trans hc) <;> rfl
  obtain ⟨hdocument, hkey, -, -⟩ := parse_document
  obtain ⟨hread, hrefused⟩ := hdocument escapedChoices hchoices
  refine ⟨hchoices, hread "\n" (.inr rfl), ?_, ?_, ?_⟩
  · exact (hrefused (basicString "indent") "indent" " = [\n2]\n" (.basic (isBasic_basicString _))
      (hends _ (.inl (by decide)))).1 (by decide)
  · exact (hrefused "generators" "generators" "]]"
      (isKey_of_all (by decide) (by decide)) (hends _ (.inr (by decide)))).2 (by decide)
        "[[" (.inr rfl)
  · have hspace : (" = 2\n" ++ document escapedChoices).toList.head? = some ' ' := by
      rw [String.toList_append]
      rfl
    exact hkey "" "indent" "indent" _ (.inl rfl) (isKey_of_all (by decide) (by decide))
      (hends _ (.inl hspace)) (by decide)

end EndpointTypings.Config
