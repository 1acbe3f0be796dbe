import EndpointTypings.Interface
import EndpointTypings.Proofs.Descriptor.Alike
import EndpointTypings.Proofs.Registry.Document

/-!
# What a registry does not depend on

Of an endpoint only the known fields count, and of these only what they say: `Registry.parse_alike`
takes two documents whose endpoints are alike, one by one (`Json.AlikeEndpoints`), and says that
they are read as the same registry or both refused. So the forms in which fields are given, and all
the members that are no fields, have no part in the text that is generated.
-/

namespace EndpointTypings

namespace Json

/-- Two members of `default` that are the same, or objects of the same key that say the same about
the endpoint. -/
inductive AlikeEndpoints : String × Json → String × Json → Prop
  /-- A member is alike to itself. -/
  | same (member : String × Json) : AlikeEndpoints member member
  /-- Both are objects. -/
  | objects {key : String} {members members' : List (String × Json)}
      (h : AlikeDescriptors (.obj members) (.obj members')) :
      AlikeEndpoints (key, .obj members) (key, .obj members')

/-- Members that are alike hold the same endpoint. -/
theorem AlikeEndpoints.isEndpoint_iff {member member' : String × Json}
    (h : AlikeEndpoints member member') (endpoint : String × Descriptor) :
    IsEndpoint member endpoint ↔ IsEndpoint member' endpoint := by
  cases h with
  | same => exact Iff.rfl
  | objects h =>
    have hiff := respects_alikeDescriptors.item_iff h
    exact ⟨fun ⟨hd⟩ => .mk ((hiff _).1 hd), fun ⟨hd⟩ => .mk ((hiff _).2 hd)⟩

/-- Members that are alike one by one hold the same endpoints. -/
theorem forall₂_isEndpoint_iff {members members' : List (String × Json)}
    (h : List.Forall₂ AlikeEndpoints members members') (endpoints : List (String × Descriptor)) :
    List.Forall₂ IsEndpoint members endpoints ↔ List.Forall₂ IsEndpoint members' endpoints := by
  induction h generalizing endpoints with
  | nil => exact Iff.rfl
  | cons hmember _ ih => simp only [List.forall₂_cons_left_iff, hmember.isEndpoint_iff, ih]

end Json

open Json

namespace Registry

/-- A document whose `default` is an object is read as the registry of the endpoints that its
members hold. -/
theorem parse_eq_ok_iff_of_isDocument {text : String} {members endpoints : List (String × Json)}
    (hdocument : IsDocument text.toList (.obj members))
    (hdefault : Entries.get? "default" members = some (.obj endpoints)) {registry : Registry} :
    parse text = .ok registry ↔ List.Forall₂ IsEndpoint endpoints registry.toList := by
  rw [parse_eq_ofJson hdocument, ofJson_eq_ok_iff hdocument.distinct]
  constructor
  · rintro ⟨hm, he⟩
    obtain rfl : _ = endpoints := by simpa [hdefault] using hm.symm
    exact he
  · exact .mk hdefault

/-- Documents whose endpoints are alike one by one are read as the same registry or both refused, so
that the same text is generated for them, if any. -/
theorem parse_alike {text text' : String}
    {members members' endpoints endpoints' : List (String × Json)}
    (hdocument : IsDocument text.toList (.obj members))
    (hdocument' : IsDocument text'.toList (.obj members'))
    (hdefault : Entries.get? "default" members = some (.obj endpoints))
    (hdefault' : Entries.get? "default" members' = some (.obj endpoints'))
    (halike : List.Forall₂ AlikeEndpoints endpoints endpoints') :
    (∀ registry, parse text = .ok registry ↔ parse text' = .ok registry) ∧
      ∀ config generated,
        (∃ registry, parse text = .ok registry ∧
          Interface.render config registry = .ok generated) ↔
        ∃ registry, parse text' = .ok registry ∧
          Interface.render config registry = .ok generated := by
  have hread : ∀ registry, parse text = .ok registry ↔ parse text' = .ok registry := by
    intro registry
    rw [parse_eq_ok_iff_of_isDocument hdocument hdefault,
      parse_eq_ok_iff_of_isDocument hdocument' hdefault', forall₂_isEndpoint_iff halike]
  exact ⟨hread, fun config generated => by simp only [hread]⟩

/-- An endpoint with a parameter, among members that are no fields. -/
def spacious : Json :=
  .obj [("url", .str "/users"), ("desc", .null),
    ("params", .obj [("get", .arr [.obj [("note", .null), ("param", .str "id")]])])]

/-- The same endpoint with its parameter in positions. -/
def terse : Json :=
  .obj [("params", .arr [.null, .arr [.arr [.str "id", .null]]])]

/-- The document of the first form. -/
def spaciousText : String :=
  "\x7b\"default\": \x7b\"a\": \x7b\"url\": \"/users\", \"desc\": null,
    \"params\": \x7b\"get\": [\x7b\"note\": null, \"param\": \"id\"\x7d]\x7d\x7d\x7d\x7d"

/-- The document of the second form. -/
def terseText : String :=
  "\x7b\"default\": \x7b\"a\": \x7b\"params\": [null, [[\"id\", null]]]\x7d\x7d\x7d"

/-- The two forms of the endpoint say the same. -/
theorem alikeDescriptors_spacious_terse : AlikeDescriptors spacious terse := by
  have hparam : AlikeParamFields (.obj [("note", .null), ("param", .str "id")])
      (.arr [.str "id", .null]) := by
    refine .fields (.obj _) (.arr (by decide)) fun i name alike hi => ?_
    match i, hi with
    | 0, rfl => exact .present rfl
    | 1, rfl => exact .nothing .absent .null
    | 2, rfl => exact .nothing .absent .absent
    | 3, rfl => exact .nothing .absent .absent
  have hspec : AlikeParamSpecs
      (.obj [("get", .arr [.obj [("note", .null), ("param", .str "id")]])])
      (.arr [.null, .arr [.arr [.str "id", .null]]]) := by
    refine .fields (.obj _) (.arr (by decide)) fun i name alike hi => ?_
    match i, hi with
    | 0, rfl => exact .nothing .absent .null
    | 1, rfl => exact .present (.items (.cons hparam .nil))
  refine .fields (.obj _) (.obj _) fun i name alike hi => ?_
  match i, hi with
  | 0, rfl => exact .nothing .absent .absent
  | 1, rfl => exact .nothing .null .absent
  | 2, rfl => exact .present hspec
  | 3, rfl => exact .nothing .absent .absent

/-- Both forms are read as an endpoint with that parameter. -/
theorem parse_alike_spacious_terse :
    parse terseText = .ok (ofList [("a", ⟨none, none, some ⟨none, some [.named "id"]⟩, none⟩)]) ∧
      parse spaciousText = parse terseText := by
  have hspacious : IsDocument spaciousText.toList (.obj [("default", .obj [("a", spacious)])]) :=
    Json.parse_eq_ok_iff.1 rfl
  have hterse : IsDocument terseText.toList (.obj [("default", .obj [("a", terse)])]) :=
    Json.parse_eq_ok_iff.1 rfl
  have hread : parse terseText
      = .ok (ofList [("a", ⟨none, none, some ⟨none, some [.named "id"]⟩, none⟩)]) := rfl
  have hsame := (parse_alike hspacious hterse rfl rfl
    (.cons (.objects alikeDescriptors_spacious_terse) .nil)).1
  exact ⟨hread, ((hsame _).2 hread).trans hread.symm⟩

end Registry

end EndpointTypings
