import EndpointTypings.Method
import Mathlib.Data.List.Forall2

/-!
# The types of parameters

Whether an endpoint takes parameters is asked twice: for their type, which is `null` where there are
none, and for the comment of the method, which mentions them where there are some. Both ask
`ParamSpec.isEmpty?`, and `ParamSpec.IsNothing` lists the four specifications that it holds of. Any
other gives an object type with an entry for each field of both groups, in order;
`ParamField.IsEntry` says what an entry is, part by part. The text shows the fields only, so it
does not tell to which group a field belongs, as long as both groups are there.
-/

namespace EndpointTypings

namespace ParamField

/-! ## Entries -/

/-- What stands behind the name of a field: a question mark unless it has to be given. -/
inductive IsMark (field : ParamField) : String → Prop
  /-- One of the marks says that the field has to be given. -/
  | mandatory (hm : field.required = some true ∨ field.isNeed = some true) : IsMark field ""
  /-- Neither of them does. -/
  | optional (hr : field.required ≠ some true) (hn : field.isNeed ≠ some true) : IsMark field "?"

/-- The type that is shown for a field: its own if there is anything to see in it. -/
inductive IsTypeText : Option String → String → Prop
  /-- There is a character that is no white space, and the type is shown as it is. -/
  | given {type : String} {c : Char} (hc : c ∈ type.toList) (hseen : Text.isBlank c = false) :
      IsTypeText (some type) type
  /-- There is only white space. -/
  | blank {type : String} (hb : ∀ c ∈ type.toList, Text.isBlank c = true) :
      IsTypeText (some type) "any"
  /-- There is no type. -/
  | absent : IsTypeText none "any"

/-- A field as an entry of an object type. -/
inductive IsEntry (field : ParamField) : String → Prop
  /-- A name, a mark and a type. -/
  | mk {mark type : String} (hm : IsMark field mark) (ht : IsTypeText field.type type) :
      IsEntry field (field.param.getD "undefined" ++ mark ++ ": " ++ type ++ ";")

variable {field : ParamField} {mark text : String} {type : Option String}

/-- The mark of a field is settled by whether it has to be given. -/
theorem isMark_iff : IsMark field mark ↔ mark = if field.isMandatory then "" else "?" := by
  have hmandatory : field.isMandatory = true ↔
      field.required = some true ∨ field.isNeed = some true := by
    simp [isMandatory]
  constructor
  · rintro (hm | ⟨hr, hn⟩)
    · rw [if_pos (hmandatory.2 hm)]
    · rw [if_neg fun h => (hmandatory.1 h).elim hr hn]
  · rintro rfl
    split_ifs with h
    · exact .mandatory (hmandatory.1 h)
    · obtain ⟨hr, hn⟩ := not_or.1 (mt hmandatory.2 h)
      exact .optional hr hn

/-- The type that is shown is settled by whether there is one and the text of it is blank. -/
theorem isTypeText_iff : IsTypeText type text ↔
    text = type.elim "any" fun given => if Text.isBlankText given then "any" else given := by
  cases type with
  | none =>
    constructor
    · rintro ⟨⟩
      rfl
    · rintro rfl
      exact .absent
  | some given =>
    have hblank : Text.isBlankText given = true ↔ ∀ c ∈ given.toList, Text.isBlank c = true :=
      List.all_eq_true
    rw [Option.elim_some]
    constructor
    · rintro (⟨hc, hseen⟩ | hb)
      · rw [if_neg fun h => absurd (hblank.1 h _ hc) (by simp [hseen])]
      · rw [if_pos (hblank.2 hb)]
    · rintro rfl
      split_ifs with h
      · exact .blank (hblank.1 h)
      · obtain ⟨c, hc, hseen⟩ : ∃ c ∈ given.toList, ¬ Text.isBlank c = true := by
          simpa using mt hblank.2 h
        exact .given hc (by simpa using hseen)

/-- A field has one entry, and it is the one that is rendered. -/
theorem isEntry_iff : IsEntry field text ↔ text = field.render := by
  have hrender : field.render = field.param.getD "undefined" ++
      (if field.isMandatory then "" else "?") ++ ": " ++ (field.type.elim "any" fun given =>
        if Text.isBlankText given then "any" else given) ++ ";" := by
    unfold render
    cases field.type <;> rfl
  rw [hrender]
  constructor
  · rintro ⟨hm, ht⟩
    rw [isMark_iff.1 hm, isTypeText_iff.1 ht]
  · rintro rfl
    exact .mk (isMark_iff.2 rfl) (isTypeText_iff.2 rfl)

/-- Fields have one entry each, and these are the ones that are rendered. -/
theorem forall₂_isEntry_iff {fields : List ParamField} {entries : List String} :
    List.Forall₂ IsEntry fields entries ↔ entries = fields.map render := by
  constructor
  · intro h
    induction h with
    | nil => rfl
    | cons hentry _ ih => rw [List.map_cons, ← isEntry_iff.1 hentry, ← ih]
  · rintro rfl
    rw [List.forall₂_map_right_iff, List.forall₂_same]
    exact fun field _ => isEntry_iff.2 rfl

end ParamField

namespace ParamSpec

/-! ## Object types -/

/-- Parameters of which there are none. Two groups that are both there are never nothing. -/
inductive IsNothing : Option ParamSpec → Prop
  /-- There is no specification. -/
  | absent : IsNothing none
  /-- There are no groups. -/
  | noGroups : IsNothing (some ⟨none, none⟩)
  /-- The only group is in the body and has no fields. -/
  | emptyPost : IsNothing (some ⟨some [], none⟩)
  /-- The only group is in the query and has no fields. -/
  | emptyGet : IsNothing (some ⟨none, some []⟩)

variable {params : Option ParamSpec} {groups : ParamSpec}

/-- The test for no parameters holds of nothing else. -/
theorem isEmpty?_eq_true_iff : isEmpty? params = true ↔ IsNothing params := by
  constructor
  · intro h
    match params, h with
    | none, _ => exact .absent
    | some ⟨none, none⟩, _ => exact .noGroups
    | some ⟨some [], none⟩, _ => exact .emptyPost
    | some ⟨none, some []⟩, _ => exact .emptyGet
  · rintro (_ | _ | _ | _) <;> rfl

/-- Parameters of which there are none take `null`. -/
theorem render?_of_isEmpty? (h : isEmpty? params = true) : render? params = "null" := by
  cases params with
  | none => rfl
  | some groups => rw [render?, if_pos h]

/-- Parameters of which there are some take an object type. -/
theorem render?_of_not_isEmpty? (h : isEmpty? (some groups) = false) : render? (some groups)
    = "\x7b " ++ String.intercalate "\n" (groups.fields.map ParamField.render) ++ " \x7d" := by
  rw [render?, if_neg (by simp [h])]

/-- An object type is not `null`. -/
theorem objectType_ne_null (body : String) : "\x7b " ++ body ++ " \x7d" ≠ "null" := by
  intro h
  have hhead := congrArg (fun s => s.toList.head?) h
  simp at hhead

/-- The type of the parameters is `null` exactly if there are none. -/
theorem render?_eq_null_iff : render? params = "null" ↔ isEmpty? params = true := by
  refine ⟨fun h => ?_, render?_of_isEmpty?⟩
  cases params with
  | none => rfl
  | some groups =>
    by_contra hsome
    rw [render?_of_not_isEmpty? (by simpa using hsome)] at h
    exact objectType_ne_null _ h

/-- There are parameters exactly if their type is an object type with the entries of the fields of
both groups. -/
theorem isEmpty?_eq_false_iff : isEmpty? params = false ↔
    ∃ groups entries, params = some groups ∧
      List.Forall₂ ParamField.IsEntry (groups.post.getD [] ++ groups.get.getD []) entries ∧
      render? params = "\x7b " ++ String.intercalate "\n" entries ++ " \x7d" := by
  constructor
  · intro h
    cases params with
    | none => cases h
    | some groups =>
      exact ⟨groups, _, rfl, ParamField.forall₂_isEntry_iff.2 rfl, render?_of_not_isEmpty? h⟩
  · rintro ⟨groups, entries, rfl, -, htext⟩
    have hne : render? (some groups) ≠ "null" := htext ▸ objectType_ne_null _
    simpa [render?_eq_null_iff] using hne

/-- Two groups that are both there are shown by their fields alone. -/
theorem render?_groups (post get : List ParamField) : render? (some ⟨some post, some get⟩)
    = "\x7b " ++ String.intercalate "\n" ((post ++ get).map ParamField.render) ++ " \x7d" :=
  render?_of_not_isEmpty? rfl

/-- That there are no parameters, that their type is `null` and that the method mentions none are
one and the same, and hold in four cases. Otherwise the type is an object type whose entries are
those of the fields of the first group and then of the second, with a line feed between each two.
Fields that move from one group to the other without leaving their order do not change it. -/
theorem null_or_object (params : Option ParamSpec) :
    (isEmpty? params = true ↔ IsNothing params) ∧
    (isEmpty? params = true ↔ render? params = "null") ∧
    (∀ space key (descriptor : Descriptor),
      (isEmpty? params = true ↔ (Method.ofEndpoint space key
        { descriptor with params := params }).hasParams = false) ∧
      (Method.ofEndpoint space key { descriptor with params := params }).paramsType
        = render? params) ∧
    (isEmpty? params = false ↔ ∃ groups entries, params = some groups ∧
      List.Forall₂ ParamField.IsEntry (groups.post.getD [] ++ groups.get.getD []) entries ∧
      render? params = "\x7b " ++ String.intercalate "\n" entries ++ " \x7d") ∧
    ∀ front moved back, render? (some ⟨some (front ++ moved), some back⟩)
      = render? (some ⟨some front, some (moved ++ back)⟩) := by
  refine ⟨isEmpty?_eq_true_iff, render?_eq_null_iff.symm, fun space key descriptor => ⟨?_, rfl⟩,
    isEmpty?_eq_false_iff, fun front moved back => ?_⟩
  · have hflag : (Method.ofEndpoint space key { descriptor with params := params }).hasParams
        = !isEmpty? params := rfl
    rw [hflag, Bool.not_eq_false']
  · rw [render?_groups, render?_groups, List.append_assoc]

example : render? (some ⟨some [.named "a"], some [⟨"b", " number ", none, some true⟩]⟩)
    = "\x7b a?: any;\nb:  number ; \x7d" := by
  decide +kernel

end ParamSpec

end EndpointTypings
