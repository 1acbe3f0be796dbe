import EndpointTypings.Config.Document
import EndpointTypings.Proofs.Config.Settings
import EndpointTypings.Proofs.Toml.Distinct

/-!
# What a configuration document sets

A document sets texts for some of the settings: each by its key in a table, or by position in an
array. `Config.IsDocument` says which tables of TOML are such documents, and `Config.textIn?` which
text one of them sets for a setting. Both are read off the table, without the order in which its
keys are visited and without what fails on the way. `Config.parse_eq_ok_iff` says that the documents
are exactly what is accepted, and that each gives the configuration with the texts it sets, and
those of the standard one where it sets none.

The entries of a table are visited in the order of their names. That this order does not matter
rests on the keys being distinct (`Toml.distinct_of_parse`): no entry is made twice, so each setting
has the text of its only entry. A table and an array are both gone through by steps that make one
setting each (`Config.MakesSettings`), so one induction serves for both.
-/

namespace EndpointTypings.Config

open Toml

/-! ## The reference -/

/-- The text of a string. -/
def valueText? : Value → Option String
  | .scalar _ (.string text) => some text
  | _ => none

/-- The values of the settings, by their keys: the entries of a table, or the items of an array by
position. -/
def settingsIn : Value → List (String × Value)
  | .table _ _ entries => entries.map fun entry => (entry.1, entry.2.2)
  | .array _ _ items => settingKeys.zip items
  | .scalar _ _ => []

/-- A value under a key makes a setting: the key is that of the setting, and the value is a string
that the setting allows. -/
def IsSetting (pair : String × Value) : Prop :=
  ∃ (setting : Setting) (text : String), setting.key = pair.1 ∧ valueText? pair.2 = some text ∧
    setting.Allows text

/-- A value that configurations are read from: a table or an array, with nothing in it but
settings. -/
def IsSettings (value : Value) : Prop :=
  (∀ span scalar, value ≠ .scalar span scalar) ∧ ∀ pair ∈ settingsIn value, IsSetting pair

/-- A table that is a configuration document: it is empty, or has settings under its only key. -/
inductive IsDocument : Table → Prop
  /-- The table is empty. -/
  | empty : IsDocument []
  /-- The only key is `generator`. -/
  | settings {span : Span} {value : Value} (hvalue : IsSettings value) :
      IsDocument [("generator", span, value)]

/-- The text that values by keys set for a setting. -/
def textUnder? (entries : List (String × Value)) (setting : Setting) : Option String :=
  (Entries.get? setting.key entries).bind valueText?

/-- The text that a document sets for a setting. -/
def textIn? (table : Table) (setting : Setting) : Option String :=
  (Entries.get? "generator" table).bind fun found => textUnder? (settingsIn found.2) setting

variable {config next made : Config} {setting : Setting} {value : Value} {part whole : Span}

/-! ## Setting by setting -/

/-- No two settings have one key. -/
theorem nodup_settingKeys : settingKeys.Nodup := by decide

/-- Settings are told apart by their keys. -/
theorem Setting.key_inj {setting other : Setting} (h : setting.key = other.key) :
    setting = other := by
  revert h
  cases setting <;> cases other <;> decide

/-- A setting is found by a key exactly if the key is its own. -/
theorem Setting.ofKey?_eq_some_iff {key : String} :
    Setting.ofKey? key = some setting ↔ setting.key = key := by
  constructor
  · intro h
    simpa using List.find?_some h
  · rintro rfl
    cases setting <;> decide

/-- A setting is made from a value exactly if it is made from the text of it. -/
theorem setValue_eq_ok_iff : setValue config setting value part = .ok next ↔
    ∃ text, valueText? value = some text ∧ config.set setting text = .ok next := by
  have hread : ∀ text, readText value = .ok text ↔ valueText? value = some text := by
    intro text
    unfold readText valueText?
    split <;> simp_all
  unfold setValue
  rw [bind_eq_ok_iff]
  refine exists_congr fun text => and_congr (hread text) ?_
  cases config.set setting text with
  | ok changed =>
    show (Except.ok changed : Except DocumentFault Config) = .ok next ↔ _
    rw [Except.ok.injEq, Except.ok.injEq]
  | error error =>
    constructor
    · rintro ⟨⟩
    · rintro ⟨⟩

/-- A step over each item of a list makes the setting whose key and value the item stands for. -/
def MakesSettings {ι : Type} (step : Config → ι → Except DocumentFault Config)
    (pair : ι → String × Value) : Prop :=
  ∀ config item next, step config item = .ok next ↔
    ∃ setting text, setting.key = (pair item).1 ∧ valueText? (pair item).2 = some text ∧
      config.set setting text = .ok next

/-- The entries of a table make settings. -/
theorem makesSettings_readEntry :
    MakesSettings readEntry fun entry => (entry.1, entry.2.2) := by
  intro config entry next
  unfold readEntry
  split
  case h_1 setting hsetting =>
    have hkey := Setting.ofKey?_eq_some_iff.1 hsetting
    rw [setValue_eq_ok_iff]
    constructor
    · rintro ⟨text, htext, hset⟩
      exact ⟨setting, text, hkey, htext, hset⟩
    · rintro ⟨other, text, hother, htext, hset⟩
      obtain rfl := Setting.key_inj (hkey.trans hother.symm)
      exact ⟨text, htext, hset⟩
  case h_2 hnone =>
    refine ⟨nofun, ?_⟩
    rintro ⟨setting, text, hkey, -⟩
    rw [Setting.ofKey?_eq_some_iff.2 hkey] at hnone
    cases hnone

/-- The configuration after an item of an array that stands for a setting. -/
def readItem (whole : Span) (config : Config) (item : Setting × Value) :
    Except DocumentFault Config :=
  setValue config item.1 item.2 (if item.1 = .ambientNamespace then item.2.span else whole)

/-- The items of an array make settings. -/
theorem makesSettings_readItem (whole : Span) :
    MakesSettings (readItem whole) fun item => (item.1.key, item.2) := by
  intro config item next
  unfold readItem
  rw [setValue_eq_ok_iff]
  constructor
  · rintro ⟨text, htext, hset⟩
    exact ⟨item.1, text, rfl, htext, hset⟩
  · rintro ⟨other, text, hother, htext, hset⟩
    rw [Setting.key_inj hother] at hset
    exact ⟨text, htext, hset⟩

/-- An array is gone through item by item, as far as there are settings. -/
theorem readItems_eq_foldlM (whole : Span) (settings : List Setting) (items : List Value)
    (config : Config) : readItems whole settings items config
      = (settings.zip items).foldlM (readItem whole) config := by
  induction settings generalizing items config with
  | nil => rfl
  | cons setting settings ih =>
    cases items with
    | nil => rfl
    | cons item items =>
      rw [readItems, List.zip_cons_cons, List.foldlM_cons]
      exact congrArg _ (funext fun next => ih items next)

namespace MakesSettings

variable {ι : Type} {step : Config → ι → Except DocumentFault Config} {pair : ι → String × Value}
  {items : List ι}

/-- The items set what they say, in whatever order they stand. -/
theorem hasTexts (hstep : MakesSettings step pair) (hd : (Entries.names (items.map pair)).Nodup)
    (h : items.foldlM step config = .ok made) :
    HasTexts (textUnder? (items.map pair)) config made := by
  induction items generalizing config with
  | nil =>
    obtain rfl := Except.ok.inj h
    exact fun _ => rfl
  | cons item items ih =>
    obtain ⟨hfresh, hrest⟩ := List.nodup_cons.1 hd
    rw [List.foldlM_cons, bind_eq_ok_iff] at h
    obtain ⟨next, hitem, h⟩ := h
    obtain ⟨setting, text, hkey, htext, hset⟩ := (hstep config item next).1 hitem
    have hnext : HasTexts (onlyText setting (some text)) config next := by
      rcases set_cases config setting text with ⟨-, herror⟩ | ⟨changed, hchanged, htexts⟩
      · rw [herror] at hset
        cases hset
      · obtain rfl := Except.ok.inj (hchanged.symm.trans hset)
        exact htexts
    intro other
    rw [ih hrest h other, hnext other, onlyText, textUnder?, textUnder?, List.map_cons,
      Entries.get?]
    by_cases hother : other = setting
    · subst hother
      have hlater : Entries.get? other.key (items.map pair) = none :=
        Entries.get?_eq_none_iff.2 (hkey ▸ hfresh)
      rw [if_pos rfl, if_pos hkey.symm, hlater, Option.bind_some, htext]
      rfl
    · have hne : (pair item).1 ≠ other.key := fun heq =>
        hother (Setting.key_inj (heq.symm.trans hkey.symm))
      rw [if_neg hother, if_neg hne, Option.none_or]

/-- The items give a valid configuration exactly if they are settings. -/
theorem exists_valid_iff (hstep : MakesSettings step pair)
    (hd : (Entries.names (items.map pair)).Nodup) :
    (∃ made, items.foldlM step standard = .ok made ∧ made.validate = .ok ()) ↔
      ∀ item ∈ items, IsSetting (pair item) := by
  constructor
  · rintro ⟨made, h, hvalid⟩ item hitem
    obtain ⟨before, after, hmade⟩ := exists_ok_of_foldlM h item hitem
    obtain ⟨setting, text, hkey, htext, -⟩ := (hstep before item after).1 hmade
    -- the text stands in the configuration, so the setting allows it
    have hget : Entries.get? setting.key (items.map pair) = some (pair item).2 :=
      Entries.get?_of_mem hd (hkey ▸ List.mem_map_of_mem hitem)
    have hmade' : made.text? setting = some text := by
      rw [hstep.hasTexts hd h setting, textUnder?, hget, Option.bind_some, htext]
      rfl
    exact ⟨setting, text, hkey, htext, allows_of_text? hvalid hmade'⟩
  · intro hall
    have htotal : ∀ item ∈ items, ∀ config, ∃ next, step config item = .ok next := by
      intro item hitem config
      obtain ⟨setting, text, hkey, htext, hallows⟩ := hall item hitem
      rcases set_cases config setting text with ⟨hnot, -⟩ | ⟨changed, hchanged, -⟩
      · exact absurd hallows hnot
      · exact ⟨changed, (hstep config item changed).2 ⟨setting, text, hkey, htext, hchanged⟩⟩
    obtain ⟨made, hmade⟩ := exists_foldlM_eq_ok htotal standard
    -- each text is that of an item or of the standard configuration
    have hallows : ∀ setting text, made.text? setting = some text → setting.Allows text := by
      intro setting text htext
      rw [hstep.hasTexts hd hmade setting] at htext
      rcases Option.or_eq_some_iff.1 htext with hset | ⟨-, hstandard⟩
      · obtain ⟨value, hget, hvalue⟩ := Option.bind_eq_some_iff.1 hset
        obtain ⟨item, hitem, hpair⟩ := List.mem_map.1 (Entries.mem_of_get? hget)
        obtain ⟨other, text', hkey, htext', hallows⟩ := hall item hitem
        rw [hpair] at hkey htext'
        obtain rfl := Setting.key_inj hkey
        obtain rfl := Option.some.inj (htext'.symm.trans hvalue)
        exact hallows
      · exact allows_of_text? (by decide) hstandard
    exact ⟨made, hmade, validate_eq_ok_iff.2
      ⟨hallows .headerDescription _ rfl, hallows .defaultOutputDir _ rfl⟩⟩

end MakesSettings

/-! ## Documents -/

variable {ofTables : Bool} {items : List Value} {table fields : Table} {text : String}

/-- The items of an array, by the keys of the settings. -/
theorem map_zip_all (items : List Value) :
    (Setting.all.zip items).map (fun item => (item.1.key, item.2)) = settingKeys.zip items := by
  rw [settingKeys, List.zip_map_left]
  rfl

/-- No scalar is read as settings. -/
theorem readSettings_scalar_ne_ok (span : Span) (scalar : Scalar) :
    readSettings (.scalar span scalar) ≠ .ok made := by
  cases scalar <;> exact nofun

/-- An array is gone through item by item. -/
theorem readSettings_array : readSettings (.array whole ofTables items)
    = (Setting.all.zip items).foldlM (readItem whole) standard :=
  readItems_eq_foldlM whole Setting.all items standard

/-- The items of an array stand under distinct keys. -/
theorem nodup_names_items (items : List Value) : (Entries.names
    ((Setting.all.zip items).map fun item => (item.1.key, item.2))).Nodup := by
  rw [map_zip_all, Entries.names_zip]
  exact nodup_settingKeys.sublist (List.take_sublist _ _)

/-- The entries of a table stand under distinct keys in the order of their names, too. -/
theorem nodup_names_fields (hd : fields.Distinct) : (Entries.names
    ((Entries.sortByName fields).map fun entry => (entry.1, entry.2.2))).Nodup := by
  rw [Entries.names, List.map_map]
  exact Entries.nodup_names_sortByName hd.names

/-- Settings that are read have the texts that are set, and the others those of the standard
configuration. -/
theorem hasTexts_of_readSettings (hv : value.Distinct) (h : readSettings value = .ok made) :
    HasTexts (textUnder? (settingsIn value)) standard made := by
  cases value with
  | scalar span scalar => exact absurd h (readSettings_scalar_ne_ok span scalar)
  | array whole ofTables items =>
    rw [readSettings_array] at h
    have htexts := (makesSettings_readItem whole).hasTexts (nodup_names_items items) h
    rw [map_zip_all] at htexts
    exact htexts
  | table span kind fields =>
    have hd := nodup_names_fields (Value.distinct_table_iff.1 hv)
    have htexts := makesSettings_readEntry.hasTexts hd h
    -- what is found under a key does not depend on the order
    intro setting
    rw [htexts setting, textUnder?, textUnder?, settingsIn]
    have hget : ∀ entries : Table, Entries.get? setting.key
        (entries.map fun entry => (entry.1, entry.2.2))
          = (Entries.get? setting.key entries).map Prod.snd :=
      Entries.get?_mapValues Prod.snd setting.key
    rw [hget, hget, Entries.get?_sortByName]

/-- A value is read as a valid configuration exactly if it holds nothing but settings. -/
theorem exists_readSettings_iff (hv : value.Distinct) :
    (∃ made, readSettings value = .ok made ∧ made.validate = .ok ()) ↔ IsSettings value := by
  cases value with
  | scalar span scalar =>
    constructor
    · rintro ⟨made, h, -⟩
      exact absurd h (readSettings_scalar_ne_ok span scalar)
    · rintro ⟨hparts, -⟩
      exact absurd rfl (hparts span scalar)
  | array whole ofTables items =>
    have hd := nodup_names_items items
    rw [readSettings_array, (makesSettings_readItem whole).exists_valid_iff hd, IsSettings,
      settingsIn, ← map_zip_all, List.forall_mem_map]
    exact ⟨fun hall => ⟨fun _ _ heq => (by cases heq), hall⟩, And.right⟩
  | table span kind fields =>
    have hd := nodup_names_fields (Value.distinct_table_iff.1 hv)
    have hread : readSettings (.table span kind fields)
        = (Entries.sortByName fields).foldlM readEntry standard := rfl
    rw [hread, makesSettings_readEntry.exists_valid_iff hd, IsSettings, settingsIn,
      List.forall_mem_map]
    have hmem : ∀ entry, entry ∈ Entries.sortByName fields ↔ entry ∈ fields :=
      fun entry => (Entries.perm_sortByName fields).mem_iff
    simp only [hmem]
    exact ⟨fun hall => ⟨fun _ _ heq => (by cases heq), hall⟩, And.right⟩

/-- An entry of a document that is read is named `generator`. -/
theorem readTopEntry_eq_ok_iff {entry : String × Span × Value} :
    readTopEntry config entry = .ok made ↔
      entry.1 = "generator" ∧ readSettings entry.2.2 = .ok made := by
  unfold readTopEntry
  split_ifs with hname
  · exact (and_iff_right hname).symm
  · exact ⟨nofun, fun h => absurd h.1 hname⟩

/-- A document is read if it is empty, and otherwise as the value of its only key. -/
theorem ofTable_eq_ok_iff (hd : (Entries.names table).Nodup) : ofTable table = .ok made ↔
    table = [] ∧ made = standard ∨
      ∃ span value, table = [("generator", span, value)] ∧ readSettings value = .ok made := by
  have hperm := Entries.perm_sortByName table
  have hsorted := Entries.nodup_names_sortByName hd
  unfold ofTable
  generalize Entries.sortByName table = sorted at hperm hsorted
  match sorted with
  | [] =>
    obtain rfl := hperm.nil_eq
    constructor
    · intro h
      exact .inl ⟨rfl, (Except.ok.inj h).symm⟩
    · rintro (⟨-, rfl⟩ | ⟨span, value, h, -⟩)
      · rfl
      · cases h
  | [entry] =>
    obtain rfl := List.singleton_perm.1 hperm
    rw [List.foldlM_cons, bind_eq_ok_iff]
    constructor
    · rintro ⟨read, hread, h⟩
      obtain rfl := Except.ok.inj h
      obtain ⟨hname, hvalue⟩ := readTopEntry_eq_ok_iff.1 hread
      exact .inr ⟨entry.2.1, entry.2.2, by rw [← hname], hvalue⟩
    · rintro (⟨h, -⟩ | ⟨span, value, h, hvalue⟩)
      · cases h
      · obtain rfl := List.singleton_injective h
        exact ⟨made, readTopEntry_eq_ok_iff.2 ⟨rfl, hvalue⟩, rfl⟩
  | entry :: other :: rest =>
    constructor
    · -- two entries would both be named `generator`
      intro h
      rw [List.foldlM_cons, bind_eq_ok_iff] at h
      obtain ⟨read, hread, h⟩ := h
      rw [List.foldlM_cons, bind_eq_ok_iff] at h
      obtain ⟨again, hagain, -⟩ := h
      have hname := (readTopEntry_eq_ok_iff.1 hread).1
      have hother := (readTopEntry_eq_ok_iff.1 hagain).1
      have hsame : entry.1 ∈ Entries.names (other :: rest) :=
        List.mem_map.2 ⟨other, List.mem_cons_self, hother.trans hname.symm⟩
      exact absurd hsame (List.nodup_cons.1 hsorted).1
    · have hlength := hperm.length_eq
      rintro (⟨rfl, -⟩ | ⟨span, value, rfl, -⟩)
      · simp at hlength
      · simp at hlength

/-- A table is read as a valid configuration exactly if it is a configuration document. -/
theorem exists_ofTable_iff (ht : table.Distinct) :
    (∃ made, ofTable table = .ok made ∧ made.validate = .ok ()) ↔ IsDocument table := by
  simp only [ofTable_eq_ok_iff ht.names]
  constructor
  · rintro ⟨made, ⟨rfl, -⟩ | ⟨span, value, rfl, hread⟩, hvalid⟩
    · exact .empty
    · have hv : value.Distinct := ht.values _ List.mem_cons_self
      exact .settings ((exists_readSettings_iff hv).1 ⟨made, hread, hvalid⟩)
  · intro h
    cases h with
    | empty => exact ⟨standard, .inl ⟨rfl, rfl⟩, by decide⟩
    | @settings span value hvalue =>
      have hv : value.Distinct := ht.values _ List.mem_cons_self
      obtain ⟨made, hread, hvalid⟩ := (exists_readSettings_iff hv).2 hvalue
      exact ⟨made, .inr ⟨span, value, rfl, hread⟩, hvalid⟩

/-- A document that is read gives the texts that it sets. -/
theorem hasTexts_of_ofTable (ht : table.Distinct) (h : ofTable table = .ok made) :
    HasTexts (textIn? table) standard made := by
  rcases (ofTable_eq_ok_iff ht.names).1 h with ⟨rfl, rfl⟩ | ⟨span, value, rfl, hread⟩
  · exact fun _ => rfl
  · have hv : value.Distinct := ht.values _ List.mem_cons_self
    exact hasTexts_of_readSettings hv hread

/-- A text is read as a configuration exactly if its table is, and the configuration is valid. -/
theorem parse_eq_ok_iff_ofTable : parse text = .ok made ↔
    ∃ table, Toml.parse text = .ok table ∧ ofTable table = .ok made ∧ made.validate = .ok () := by
  unfold parse
  cases Toml.parse text with
  | error fault => exact ⟨nofun, fun ⟨_, h, _⟩ => nomatch h⟩
  | ok table =>
    dsimp only
    cases hread : ofTable table with
    | error fault =>
      refine ⟨nofun, ?_⟩
      rintro ⟨table', htable, h, -⟩
      obtain rfl := Except.ok.inj htable
      rw [hread] at h
      cases h
    | ok config =>
      rw [build_eq_ok_iff]
      constructor
      · rintro ⟨hvalid, rfl⟩
        exact ⟨table, rfl, hread, hvalid⟩
      · rintro ⟨table', htable, h, hvalid⟩
        obtain rfl := Except.ok.inj htable
        obtain rfl := Except.ok.inj (hread.symm.trans h)
        exact ⟨hvalid, rfl⟩

/-- A configuration that is read is valid. -/
theorem validate_of_parse (h : parse text = .ok made) : made.validate = .ok () := by
  obtain ⟨table, -, -, hvalid⟩ := parse_eq_ok_iff_ofTable.1 h
  exact hvalid

/-- A text is read as a configuration exactly if it is TOML for a configuration document, and the
configuration has the texts that the document sets, and those of the standard one where it sets
none. -/
theorem parse_eq_ok_iff : parse text = .ok made ↔
    ∃ table, Toml.parse text = .ok table ∧ IsDocument table ∧
      HasTexts (textIn? table) standard made := by
  rw [parse_eq_ok_iff_ofTable]
  constructor
  · rintro ⟨table, htable, hread, hvalid⟩
    have ht := distinct_of_parse htable
    exact ⟨table, htable, (exists_ofTable_iff ht).1 ⟨made, hread, hvalid⟩,
      hasTexts_of_ofTable ht hread⟩
  · rintro ⟨table, htable, hdocument, htexts⟩
    have ht := distinct_of_parse htable
    obtain ⟨read, hread, hvalid⟩ := (exists_ofTable_iff ht).2 hdocument
    obtain rfl : read = made := ext_text? fun setting =>
      (hasTexts_of_ofTable ht hread setting).trans (htexts setting).symm
    exact ⟨table, htable, hread, hvalid⟩

/-- A configuration document is read. -/
theorem exists_parse_of_isDocument (htable : Toml.parse text = .ok table)
    (hdocument : IsDocument table) : ∃ made, parse text = .ok made := by
  obtain ⟨made, hread, hvalid⟩ := (exists_ofTable_iff (distinct_of_parse htable)).2 hdocument
  exact ⟨made, parse_eq_ok_iff_ofTable.2 ⟨table, htable, hread, hvalid⟩⟩

example : (parse "generator = [\"IOrders\", \"orders\"]").map (·.text? .headerDescription)
    = .ok (some "orders") := by
  decide +kernel

/-- A text is refused with an error about the configuration. -/
theorem configuration_of_parse {error : Error} (h : parse text = .error error) :
    ∃ reason, error = .configuration reason := by
  unfold parse at h
  split at h
  · exact ⟨_, (Except.error.inj h).symm⟩
  · split at h
    · exact ⟨_, (Except.error.inj h).symm⟩
    · exact configuration_of_build h

end EndpointTypings.Config
