import EndpointTypings.Proofs.Entries
import EndpointTypings.Proofs.Steps
import EndpointTypings.Proofs.Template

/-!
# What a template takes from its context

A template goes by the members it names and by nothing else in its context. Two contexts that have
the same members in the places that are filled in, and the same truth under its conditions, are
filled in alike (`Template.render_congr`). A member in a single place can be exchanged there: what
is before it and what is behind it stay, whatever the new value reads like
(`Template.exists_surroundings`).

`Template.renderNamed_spec` puts this together for the templates that have a name: which contexts
are enough for them, what they have in common with others, and that a text is printed as it stands.
-/

namespace EndpointTypings

/-! ## Contexts with a member exchanged -/

namespace Json

/-- A value with a member set, if it is an object. -/
def withMember (context : Json) (name : String) (value : Json) : Json :=
  match context with
  | obj members => obj (Entries.put name value members)
  | other => other

variable {context : Json} {name other : String}

/-- The other members are as they were. -/
theorem member?_withMember_of_ne (hne : other ≠ name) (value : Json) :
    (context.withMember name value).member? other = context.member? other := by
  cases context with
  | obj members => exact Entries.get?_put_of_ne hne value members
  | _ => rfl

/-- A member that is set has its value, if something is in the object already. -/
theorem member?_withMember_self (h : (context.member? other).isSome) (value : Json) :
    (context.withMember name value).member? name = some value := by
  cases context with
  | obj members => exact Entries.get?_put_self name value members
  | _ => cases h

/-- A value has some members exactly if it is an object with their names, unless none are asked
for. -/
theorem forall_isSome_member?_iff {names : List String} (hne : names ≠ []) :
    (∀ name ∈ names, (context.member? name).isSome) ↔
      ∃ members, context = .obj members ∧ ∀ name ∈ names, name ∈ Entries.names members := by
  cases context with
  | obj members =>
    have hsome : ∀ name, ((obj members).member? name).isSome ↔ name ∈ Entries.names members := by
      intro name
      rw [member?, Option.isSome_iff_ne_none, ne_eq, Entries.get?_eq_none_iff, not_not]
    simp only [hsome]
    exact ⟨fun h => ⟨members, rfl, h⟩, fun ⟨_, heq, h⟩ => Json.obj.inj heq ▸ h⟩
  | _ =>
    obtain ⟨name, rest, rfl⟩ := List.exists_cons_of_ne_nil hne
    exact ⟨fun h => absurd (h name List.mem_cons_self) nofun, nofun⟩

end Json

namespace Template

variable {context other : Json} {pieces front back : List Piece} {middle : Piece}
  {field : String} {text : String}

/-! ## What is not looked at -/

mutual

/-- The conditions of the blocks in a piece. -/
def conditionsOfPiece : Piece → List String
  | .text _ => []
  | .place _ => []
  | .block condition body => condition :: conditions body

/-- The conditions of the blocks in a template. -/
def conditions : List Piece → List String
  | [] => []
  | piece :: pieces => conditionsOfPiece piece ++ conditions pieces

end

/-- Contexts look the same to a template: its conditions hold in both or in none, and in the places
that are filled in they have the same. -/
structure LookAlike (names conditions : List String) (context other : Json) : Prop where
  /-- The conditions hold in both or in none. -/
  truth : ∀ condition ∈ conditions,
    isTruthy (valueIn context condition) = isTruthy (valueIn other condition)
  /-- The places are filled with the same. -/
  same : ∀ name ∈ names, context.member? name = other.member? name

/-- Contexts that look the same to something look the same to a part of it. -/
theorem LookAlike.mono {names conditions names' conditions' : List String}
    (h : LookAlike names conditions context other) (hnames : names' ⊆ names)
    (hconditions : conditions' ⊆ conditions) : LookAlike names' conditions' context other :=
  ⟨fun condition hm => h.truth condition (hconditions hm), fun name hm => h.same name (hnames hm)⟩

mutual

/-- A piece is filled in alike from contexts that look the same to it. -/
theorem renderPiece_congr (piece : Piece)
    (h : LookAlike (openPlacesOfPiece context piece) (conditionsOfPiece piece) context other) :
    renderPiece context piece = renderPiece other piece := by
  cases piece with
  | text text => rfl
  | place name =>
    have hsame : context.member? name = other.member? name := h.same name List.mem_cons_self
    rw [renderPiece, renderPiece, hsame]
  | block condition body =>
    have htruth : isTruthy (valueIn context condition) = isTruthy (valueIn other condition) :=
      h.truth condition List.mem_cons_self
    rw [renderPiece_block, renderPiece_block, ← htruth]
    split_ifs with hholds
    · -- only a block that is filled in asks for what is in it
      refine render_congr body ⟨fun other hm => h.truth other (List.mem_cons_of_mem _ hm), ?_⟩
      intro name hm
      exact h.same name (by rwa [openPlacesOfPiece, if_pos hholds])
    · rfl

/-- A template is filled in alike from contexts that look the same to it. -/
theorem render_congr (pieces : List Piece)
    (h : LookAlike (openPlaces context pieces) (conditions pieces) context other) :
    render context pieces = render other pieces := by
  cases pieces with
  | nil => rfl
  | cons piece pieces =>
    have hpiece := renderPiece_congr piece
      (h.mono (List.subset_append_left _ _) (List.subset_append_left _ _))
    have hpieces := render_congr pieces
      (h.mono (List.subset_append_right _ _) (List.subset_append_right _ _))
    rw [render, render, hpiece, hpieces]

end

/-! ## A member in one place -/

/-- The conditions of two templates are those of the one and of the other. -/
theorem conditions_append (front back : List Piece) :
    conditions (front ++ back) = conditions front ++ conditions back := by
  induction front with
  | nil => rfl
  | cons piece front ih => rw [List.cons_append, conditions, conditions, ih, List.append_assoc]

/-- The places of two templates are those of the one and of the other. -/
theorem places_append (front back : List Piece) :
    places (front ++ back) = places front ++ places back := by
  induction front with
  | nil => rfl
  | cons piece front ih => rw [List.cons_append, places, places, ih, List.append_assoc]

/-- Two templates are filled in one after the other. -/
theorem render_append_eq_ok_iff :
    render context (front ++ back) = .ok text ↔
      ∃ before after, render context front = .ok before ∧ render context back = .ok after ∧
        before ++ after = text := by
  induction front generalizing text with
  | nil =>
    have hnil : render context [] = .ok "" := rfl
    rw [List.nil_append, hnil]
    constructor
    · exact fun h => ⟨"", text, rfl, h, String.empty_append⟩
    · rintro ⟨before, after, hbefore, hafter, rfl⟩
      obtain rfl := Except.ok.inj hbefore
      rw [hafter, String.empty_append]
  | cons piece front ih =>
    simp only [List.cons_append, render, bind_eq_ok_iff, ih]
    constructor
    · rintro ⟨shown, hpiece, rest, ⟨before, after, hbefore, hafter, rfl⟩, htext⟩
      refine ⟨shown ++ before, after, ⟨shown, hpiece, before, hbefore, rfl⟩, hafter, ?_⟩
      rw [String.append_assoc]
      exact Except.ok.inj htext
    · rintro ⟨_, after, ⟨shown, hpiece, before, hbefore, heq⟩, hafter, rfl⟩
      obtain rfl := Except.ok.inj heq
      refine ⟨shown, hpiece, before ++ after, ⟨before, after, hbefore, hafter, rfl⟩, ?_⟩
      rw [String.append_assoc]
      rfl

/-- Whether a template has nothing to do with a name. -/
def Ignores (name : String) (pieces : List Piece) : Prop :=
  name ∉ places pieces ∧ name ∉ conditions pieces

instance (name : String) (pieces : List Piece) : Decidable (Ignores name pieces) :=
  inferInstanceAs (Decidable (_ ∧ _))

/-- A template that has nothing to do with a member is filled in alike whatever the member is. -/
theorem Ignores.render_withMember (h : Ignores field pieces) (value : Json) :
    render (context.withMember field value) pieces = render context pieces := by
  have hother : ∀ other, other ≠ field →
      context.member? other = (context.withMember field value).member? other :=
    fun other hne => (Json.member?_withMember_of_ne hne value).symm
  refine (render_congr pieces ⟨fun condition hm => ?_, fun name hm => ?_⟩).symm
  · rw [valueIn, valueIn, hother condition fun heq => h.2 (heq ▸ hm)]
  · exact hother name fun heq => h.1 (heq ▸ mem_places hm)

/-- What is shown of a piece stands between what is shown of the pieces around it, and that stays
when a member is exchanged which these have nothing to do with. -/
theorem exists_surroundings (h : render context (front ++ middle :: back) = .ok text)
    (hfront : Ignores field front) (hback : Ignores field back) :
    ∃ before after, ∀ value shown,
      renderPiece (context.withMember field value) middle = .ok shown →
        render (context.withMember field value) (front ++ middle :: back)
          = .ok (before ++ shown ++ after) := by
  obtain ⟨before, rest, hbefore, hrest, -⟩ := render_append_eq_ok_iff.1 h
  rw [render, bind_eq_ok_iff] at hrest
  obtain ⟨old, -, hrest⟩ := hrest
  obtain ⟨after, hafter, -⟩ := bind_eq_ok_iff.1 hrest
  refine ⟨before, after, fun value shown hshown => ?_⟩
  rw [render_append_eq_ok_iff, hfront.render_withMember, render, hshown,
    hback.render_withMember, hafter, String.append_assoc]
  exact ⟨before, shown ++ after, hbefore, rfl, rfl⟩

/-- A place whose name occurs nowhere else parts a template in two that have nothing to do with
it. -/
theorem exists_split_at_place (hm : .place field ∈ pieces)
    (honce : (places pieces).count field = 1) (hnone : field ∉ conditions pieces) :
    ∃ front back, pieces = front ++ .place field :: back ∧ Ignores field front ∧
      Ignores field back := by
  obtain ⟨front, back, rfl⟩ := List.append_of_mem hm
  have hplaces : places (.place field :: back) = field :: places back := rfl
  have hconditions : conditions (.place field :: back) = conditions back := rfl
  rw [places_append, hplaces, List.count_append, List.count_cons_self] at honce
  rw [conditions_append, hconditions, List.mem_append, not_or] at hnone
  exact ⟨front, back, rfl, ⟨List.count_eq_zero.1 (by omega), hnone.1⟩,
    ⟨List.count_eq_zero.1 (by omega), hnone.2⟩⟩

/-! ## The templates that have a name -/

/-- The members that the template with a name cannot do without. -/
def required (name : String) : List String :=
  if name = "typings/method" then
    ["key", "api_name", "opts_type", "params_type", "success_type", "response_type"]
  else if name = "typings/interface" then ["header_description", "interface_name", "body"]
  else []

/-- The members that the template with a name goes by only if they are truthy. -/
def optional (name : String) : List String :=
  if name = "typings/method" then ["description", "has_params"] else []

/-- Contexts that agree on the variables of the template with a name: they have the same, or lack
the same, where the template cannot do without, and elsewhere it makes no difference which value
that is not truthy they have, or whether they have any. -/
structure AgreeFor (name : String) (context other : Json) : Prop where
  /-- What the template cannot do without is the same. -/
  required : ∀ field ∈ required name, context.member? field = other.member? field
  /-- What else it goes by is the same, or truthy in neither. -/
  optional : ∀ field ∈ optional name, context.member? field = other.member? field ∨
    isTruthy (valueIn context field) = false ∧ isTruthy (valueIn other field) = false

/-- What a template asks of a context, by its name: every member it cannot do without is filled in,
what else is filled in is truthy, and the conditions are among the members it can do without. -/
structure Asks (context : Json) (name : String) (template : Template) : Prop where
  /-- What it cannot do without is filled in. -/
  filled : ∀ field ∈ required name, field ∈ openPlaces context template
  /-- What else is filled in is truthy. -/
  truthy : ∀ field ∈ openPlaces context template, field ∈ required name ∨
    field ∈ optional name ∧ isTruthy (valueIn context field) = true
  /-- The conditions are among the rest. -/
  conditional : ∀ condition ∈ conditions template, condition ∈ optional name

/-- The templates that have a name ask what their names say. -/
theorem asks_of_named? {name : String} {template : Template} (h : named? name = some template)
    (context : Json) : Asks context name template := by
  unfold named? at h
  split_ifs at h with hmethod hinterface
  · subst hmethod
    obtain rfl := Option.some.inj h
    -- the description is a place only where it is truthy
    have hopen : openPlaces context method =
        (if isTruthy (valueIn context "description") then ["description"] else []) ++
          ["api_name", "key", "opts_type", "params_type", "success_type", "response_type"] := by
      simp [method, openPlaces, openPlacesOfPiece]
    refine ⟨?_, fun name hm => ?_, by decide⟩
    · rw [hopen]
      have hall : required "typings/method" ⊆
          ["api_name", "key", "opts_type", "params_type", "success_type", "response_type"] := by
        decide
      exact fun name hm => List.mem_append_right _ (hall hm)
    · rw [hopen, List.mem_append] at hm
      rcases hm with hm | hm
      · split_ifs at hm with htruthy
        · obtain rfl := List.mem_singleton.1 hm
          exact .inr ⟨by decide, htruthy⟩
        · exact absurd hm List.not_mem_nil
      · have hall : ["api_name", "key", "opts_type", "params_type", "success_type",
            "response_type"] ⊆ required "typings/method" := by decide
        exact .inl (hall hm)
  · subst hinterface
    obtain rfl := Option.some.inj h
    exact ⟨fun _ hm => hm, fun _ hm => .inl hm, by decide⟩

/-- A value is truthy only if the context has it. -/
theorem isSome_of_isTruthy (h : isTruthy (valueIn context field) = true) :
    (context.member? field).isSome := by
  cases hv : context.member? field with
  | none =>
    rw [valueIn, hv] at h
    cases h
  | some value => rfl

/-- A template is filled in exactly from the contexts that have what it cannot do without. -/
theorem Asks.exists_render_iff {name : String} {template : Template}
    (h : Asks context name template) : (∃ text, render context template = .ok text) ↔
      ∀ field ∈ required name, (context.member? field).isSome := by
  constructor
  · rintro ⟨text, htext⟩ field hm
    rcases turns_render context template with ⟨hall, -⟩ | ⟨-, reason, herror⟩
    · exact hall field (h.filled field hm)
    · rw [htext] at herror
      cases herror
  · intro hrequired
    rcases turns_render context template with ⟨-, hfilled⟩ | ⟨⟨field, hm, hnone⟩, -⟩
    · exact ⟨_, hfilled⟩
    · -- what else is filled in is truthy, so the context has it as well
      have hsome : (context.member? field).isSome :=
        (h.truthy field hm).elim (hrequired field) fun hopt => isSome_of_isTruthy hopt.2
      rw [hnone] at hsome
      cases hsome

/-- Contexts that agree on the variables of a template look the same to it. -/
theorem Asks.lookAlike {name : String} {template : Template} (h : Asks context name template)
    (hagree : AgreeFor name context other) :
    LookAlike (openPlaces context template) (conditions template) context other where
  truth condition hm := by
    rcases hagree.optional condition (h.conditional condition hm) with hsame | ⟨hfalse, hfalse'⟩
    · rw [valueIn, valueIn, hsame]
    · rw [hfalse, hfalse']
  same field hm := by
    rcases h.truthy field hm with hrequired | ⟨hoptional, htruthy⟩
    · exact hagree.required field hrequired
    · refine (hagree.optional field hoptional).resolve_right fun hfalse => ?_
      rw [hfalse.1] at htruthy
      cases htruthy

/-- A member that a template cannot do without has one place in it, and conditions do not go by
it. -/
theorem exists_split_at_required {name : String} {template : Template}
    (h : named? name = some template) (hm : field ∈ required name) :
    ∃ front back, template = front ++ .place field :: back ∧ Ignores field front ∧
      Ignores field back := by
  unfold named? at h
  split_ifs at h with hmethod hinterface
  · subst hmethod
    obtain rfl := Option.some.inj h
    have hone : ∀ field ∈ required "typings/method", (places method).count field = 1 ∧
        field ∉ conditions method := by decide
    refine exists_split_at_place ?_ (hone field hm).1 (hone field hm).2
    revert field
    simp [required, method]
  · subst hinterface
    obtain rfl := Option.some.inj h
    have hone : ∀ field ∈ required "typings/interface",
        (places interface).count field = 1 ∧ field ∉ conditions interface := by decide
    refine exists_split_at_place ?_ (hone field hm).1 (hone field hm).2
    revert field
    simp [required, interface]

/-- A description has a block to itself, and nothing else in the template of a method goes by it. -/
theorem exists_split_at_description {template : Template}
    (h : named? "typings/method" = some template) :
    ∃ front back, template
        = front ++ .block "description" [.text " ", .place "description"] :: back ∧
      Ignores "description" front ∧ Ignores "description" back := by
  obtain rfl : method = template := Option.some.inj h
  exact ⟨[.text "  /**\n   *"], method.drop 2, rfl, by decide, by decide⟩

/-- A description that is not empty is shown behind a space. -/
theorem renderPiece_description {value : String}
    (h : context.member? "description" = some (.str value)) (hne : value ≠ "") :
    renderPiece context (.block "description" [.text " ", .place "description"])
      = .ok (" " ++ value) := by
  have hvalue : valueIn context "description" = .str value := by rw [valueIn, h]; rfl
  have htruthy : isTruthy (.str value) = true := by simpa [isTruthy] using hne
  have hplaces : ∀ name ∈ places [.text " ", .place "description"],
      (context.member? name).isSome := by
    intro name hm
    obtain rfl := List.mem_singleton.1 hm
    rw [h]
    rfl
  rw [renderPiece_block, hvalue, if_pos htruthy, render_eq_fill _ hplaces]
  simp only [fill, fillPiece, hvalue, print, String.append_empty]

/-- There is something that a template with a name cannot do without. -/
theorem required_ne_nil {name : String} {template : Template} (h : named? name = some template) :
    required name ≠ [] := by
  unfold named? at h
  split_ifs at h with hmethod hinterface
  · subst hmethod
    decide
  · subst hinterface
    decide

/-- There are two names. -/
theorem exists_named?_iff {name : String} : (∃ template, named? name = some template) ↔
    name = "typings/method" ∨ name = "typings/interface" := by
  unfold named?
  split_ifs with hmethod hinterface
  · exact ⟨fun _ => .inl hmethod, fun _ => ⟨_, rfl⟩⟩
  · exact ⟨fun _ => .inr hinterface, fun _ => ⟨_, rfl⟩⟩
  · exact ⟨nofun, fun h => absurd h (not_or.2 ⟨hmethod, hinterface⟩)⟩

/-- A template with a name is filled in exactly from the objects that have the members it cannot do
without; any other name, and any other context, is an error of the template. Contexts that agree on
its variables give the same, whatever else they have and in whatever order. And whatever text is put
under one of its variables stands in what is filled in as it is, between the same two texts. -/
theorem renderNamed_spec (name : String) (context : Json) :
    ((∃ text, renderNamed name context = .ok text) ↔
      (name = "typings/method" ∨ name = "typings/interface") ∧
        ∃ members, context = .obj members ∧
          ∀ field ∈ required name, field ∈ Entries.names members) ∧
    (∀ error, renderNamed name context = .error error → error.isTemplate = true) ∧
    (∀ other, AgreeFor name context other → renderNamed name other = renderNamed name context) ∧
    (∀ text, renderNamed name context = .ok text →
      (∀ field ∈ required name, ∃ before after, ∀ value : String,
        renderNamed name (context.withMember field (.str value))
          = .ok (before ++ value ++ after)) ∧
      (name = "typings/method" → ∃ before after, ∀ value : String, value ≠ "" →
        renderNamed name (context.withMember "description" (.str value))
          = .ok (before ++ value ++ after))) := by
  rw [← exists_named?_iff]
  cases hnamed : named? name with
  | none =>
    -- no context is enough for a template that does not exist
    have hnone : ∀ other, renderNamed name other
        = .error (.template ("Template not found: " ++ name) none) := by
      intro other
      rw [renderNamed, hnamed]
    simp only [hnone]
    refine ⟨⟨nofun, fun h => nomatch h.1⟩, ?_, fun _ _ => trivial, nofun⟩
    rintro _ ⟨⟩
    rfl
  | some template =>
    have hrender : ∀ other, renderNamed name other = render other template := by
      intro other
      rw [renderNamed, hnamed]
    have hasks := asks_of_named? hnamed context
    simp only [hrender]
    refine ⟨?_, fun error herror => ?_, fun other hagree => ?_, fun text htext => ⟨?_, ?_⟩⟩
    · rw [hasks.exists_render_iff, Json.forall_isSome_member?_iff (required_ne_nil hnamed)]
      exact ⟨fun h => ⟨⟨template, rfl⟩, h⟩, And.right⟩
    · rcases turns_render context template with ⟨-, hfilled⟩ | ⟨-, reason, hreason⟩
      · rw [herror] at hfilled
        cases hfilled
      · rw [herror] at hreason
        obtain rfl := Except.error.inj hreason
        rfl
    · exact (render_congr template (hasks.lookAlike hagree)).symm
    · intro field hm
      have hsome := hasks.exists_render_iff.1 ⟨text, htext⟩ field hm
      obtain ⟨front, back, rfl, hfront, hback⟩ := exists_split_at_required hnamed hm
      obtain ⟨before, after, hbetween⟩ := exists_surroundings htext hfront hback
      refine ⟨before, after, fun value => hbetween (.str value) value ?_⟩
      rw [renderPiece, Json.member?_withMember_self hsome]
      rfl
    · rintro rfl
      have hsome := hasks.exists_render_iff.1 ⟨text, htext⟩ "key" (by decide)
      obtain ⟨front, back, rfl, hfront, hback⟩ := exists_split_at_description hnamed
      obtain ⟨before, after, hbetween⟩ := exists_surroundings htext hfront hback
      refine ⟨before ++ " ", after, fun value hne => ?_⟩
      have hmember : (context.withMember "description" (.str value)).member? "description"
          = some (.str value) := Json.member?_withMember_self hsome _
      have hspace : before ++ " " ++ value = before ++ (" " ++ value) := String.append_assoc
      rw [hspace]
      exact hbetween (.str value) (" " ++ value) (renderPiece_description hmember hne)

example : renderNamed "typings/interface" (.obj [("body", .str "\x7b\x7bkey\x7d\x7d"),
    ("interface_name", .str "IApis"), ("key", .bool true), ("header_description", .null)])
      = .ok "/*\n * @Description \n */\n\ninterface IApis \x7b\x7b\x7bkey\x7d\x7d\n\x7d" := by
  decide +kernel

end Template

end EndpointTypings
