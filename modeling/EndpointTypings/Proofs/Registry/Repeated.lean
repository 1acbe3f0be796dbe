import EndpointTypings.Proofs.Json.Written
import EndpointTypings.Proofs.Registry.Document

/-!
# Repeated names in registry documents

A name can be repeated twice over on the way from a document to a registry: the reader of JSON
merges repeated members, and `Registry.ofList` replaces the descriptor of a key that it is given
again. `Registry.parse_repeated` says that the two agree: endpoints that are written with repeated
keys make the registry that inserting them in turn makes. It also says that a member counts for
nothing once its name is written again, be it an endpoint or `default` itself, so that what it holds
is never looked at.

The first part is an induction over the members, with the members merged so far standing one for one
for the endpoints put so far (`Entries.forall₂_merge`).
-/

namespace EndpointTypings.Registry

open Json

variable {text : String} {document members : List (String × Json)}

/-- What is found in a document is the last value that is written, merged. -/
theorem get?_merge_mergedMembers (name : String) (members : List (String × Json)) :
    Entries.get? name (Entries.merge (mergedMembers members))
      = (Entries.get? name members.reverse).map merged := by
  have hreverse : (Entries.mapValues merged members).reverse
      = Entries.mapValues merged members.reverse := List.map_reverse.symm
  rw [Entries.get?_merge, mergedMembers_eq_mapValues, hreverse, Entries.get?_mapValues]

/-- A document is read as the registry that its value holds once merged. -/
theorem parse_of_verbatim {value : Json} (h : IsVerbatimDocument text.toList value) :
    parse text = ofJson value.merged :=
  parse_eq_ofJson (isDocument_iff_verbatim.2 ⟨value, h, rfl⟩)

/-- A document that is read has an endpoint for each name that is written in its last `default`. -/
theorem size_of_parse {registry : Registry} (h : parse text = .ok registry) :
    ∃ document members, IsVerbatimDocument text.toList (.obj document) ∧
      Entries.get? "default" document.reverse = some (.obj members) ∧
      registry.size = (Entries.names members).eraseDups.length := by
  obtain ⟨_, hdocument, ⟨hm, he⟩⟩ := parse_eq_ok_iff.1 h
  obtain ⟨value, hverbatim, hvalue⟩ := isDocument_iff_verbatim.1 hdocument
  obtain ⟨document, rfl, rfl⟩ := merged_eq_obj_iff.1 hvalue
  rw [get?_merge_mergedMembers, Option.map_eq_some_iff] at hm
  obtain ⟨last, hlast, hendpoints⟩ := hm
  obtain ⟨members, rfl, rfl⟩ := merged_eq_obj_iff.1 hendpoints
  refine ⟨document, members, hverbatim, hlast, ?_⟩
  -- the endpoints stand one for one for the merged members
  calc registry.size = (Entries.merge (mergedMembers members)).length := he.length_eq.symm
    _ = (Entries.names (mergedMembers members)).eraseDups.length := Entries.length_merge _
    _ = (Entries.names members).eraseDups.length := by
      rw [mergedMembers_eq_mapValues, Entries.names_mapValues]

/-- Of the members of a document only the last `default` is looked at. -/
theorem ofJson_merged_congr {document' : List (String × Json)}
    (h : (Entries.get? "default" document'.reverse).map merged
      = (Entries.get? "default" document.reverse).map merged) :
    ofJson (Json.obj document').merged = ofJson (Json.obj document).merged := by
  rw [merged, merged, ofJson, ofJson, get?_merge_mergedMembers, get?_merge_mergedMembers, h]

/-- Members that are written as endpoints, each holding one, are read as the registry of these
endpoints, inserted in turn. -/
theorem ofJson_of_endpoints {endpoints : List (String × Descriptor)}
    (hdistinct : (Json.obj document).merged.Distinct)
    (hdefault : Entries.get? "default" document.reverse = some (.obj members))
    (h : List.Forall₂ IsEndpoint (mergedMembers members) endpoints) :
    ofJson (Json.obj document).merged = .ok (ofList endpoints) := by
  have hname : ∀ member endpoint, IsEndpoint member endpoint → member.1 = endpoint.1 := by
    rintro _ _ ⟨_⟩
    rfl
  -- what the members are merged to stands for what the endpoints are merged to
  have hmerged := Entries.forall₂_merge hname h
  rw [← toList_ofList] at hmerged
  have hget : Entries.get? "default" (Entries.merge (mergedMembers document))
      = some (.obj (Entries.merge (mergedMembers members))) := by
    rw [get?_merge_mergedMembers, hdefault, Option.map_some, merged]
  rw [ofJson_eq_ok_iff hdistinct, merged]
  exact .mk hget hmerged

/-- A document in which names are repeated is read by the last value of each: other documents with
the same last `default` are read alike. If that is an object whose members all hold endpoints, the
document is read as the registry of these endpoints, inserted in turn. Whatever the members hold,
documents are read alike if the keys of their endpoints are the same in order of first occurrence,
each with the same last value. -/
theorem parse_repeated (hdocument : IsVerbatimDocument text.toList (.obj document)) :
    (∀ text' document', IsVerbatimDocument text'.toList (.obj document') →
      (Entries.get? "default" document'.reverse).map merged
        = (Entries.get? "default" document.reverse).map merged → parse text' = parse text) ∧
    ∀ members, Entries.get? "default" document.reverse = some (.obj members) →
      (∀ endpoints, List.Forall₂ IsEndpoint (mergedMembers members) endpoints →
        parse text = .ok (ofList endpoints)) ∧
      ∀ text' document' members', IsVerbatimDocument text'.toList (.obj document') →
        Entries.get? "default" document'.reverse = some (.obj members') →
        (Entries.names members').eraseDups = (Entries.names members).eraseDups →
        (∀ key, (Entries.get? key members'.reverse).map merged
          = (Entries.get? key members.reverse).map merged) → parse text' = parse text := by
  have hlast : ∀ text' document', IsVerbatimDocument text'.toList (.obj document') →
      (Entries.get? "default" document'.reverse).map merged
        = (Entries.get? "default" document.reverse).map merged → parse text' = parse text := by
    intro text' document' hdocument' h
    rw [parse_of_verbatim hdocument', parse_of_verbatim hdocument, ofJson_merged_congr h]
  refine ⟨hlast, fun members hdefault => ⟨fun endpoints h => ?_, ?_⟩⟩
  · have hdistinct : (Json.obj document).merged.Distinct :=
      (isDocument_iff_verbatim.2 ⟨_, hdocument, rfl⟩).distinct
    rw [parse_of_verbatim hdocument, ofJson_of_endpoints hdistinct hdefault h]
  · intro text' document' members' hdocument' hdefault' hkeys hvalues
    -- the same keys with the same last values are merged to the same endpoints
    have hmerge : Entries.merge (mergedMembers members')
        = Entries.merge (mergedMembers members) := by
      refine Entries.ext_get? (Entries.nodup_names_merge _) ?_ fun key => ?_
      · simp only [Entries.names_merge, mergedMembers_eq_mapValues, Entries.names_mapValues, hkeys]
      · rw [get?_merge_mergedMembers, get?_merge_mergedMembers, hvalues key]
    refine hlast text' document' hdocument' ?_
    rw [hdefault', hdefault, Option.map_some, Option.map_some, merged, merged, hmerge]

/-- A document that writes `default` twice, and in it the key `a`, first with a given value. -/
def twice (first : Json) : List (String × Json) :=
  [("default", .null), ("default", .obj [("a", first), ("b", .obj [("desc", .str "about b")]),
    ("a", .obj [("res", .str "T")])])]

/-- What is written for the document spells it as it stands. -/
theorem isVerbatimDocument_twice {first : Json} (h : Plain 125 first) :
    IsVerbatimDocument (Json.obj (twice first)).compact.toList (.obj (twice first)) := by
  have hfield : ∀ name text, Plain 125 (.obj [(name, .str text)]) := fun name text =>
    .obj (List.forall_mem_singleton.2 (.str text))
  have hendpoints : Plain 126 (.obj [("a", first), ("b", .obj [("desc", .str "about b")]),
      ("a", .obj [("res", .str "T")])]) := by
    refine .obj ?_
    simp only [List.forall_mem_cons]
    exact ⟨h, hfield _ _, hfield _ _, nofun⟩
  have hplain : Plain maxDepth (.obj (twice first)) :=
    .obj (List.forall_mem_cons.2 ⟨.null, List.forall_mem_singleton.2 hendpoints⟩)
  exact hplain.isVerbatimDocument.1

/-- Of the key `a` only the last value counts, at its first place. Its first value is not looked at:
it may be no endpoint at all. -/
theorem parse_repeated_twice :
    parse (Json.obj (twice (.obj []))).compact = .ok (ofList [("a", .empty),
        ("b", { Descriptor.empty with desc := some "about b" }),
        ("a", { Descriptor.empty with res := some "T" })]) ∧
      parse (Json.obj (twice .null)).compact = parse (Json.obj (twice (.obj []))).compact := by
  have hread := parse_repeated (isVerbatimDocument_twice (.obj nofun : Plain 125 (.obj [])))
  obtain ⟨hendpoints, hsame⟩ := hread.2 _ rfl
  refine ⟨hendpoints _ ?_, hsame _ _ _ (isVerbatimDocument_twice .null) rfl (by decide) ?_⟩
  · refine .cons (.mk ?_) (.cons (.mk ?_) (.cons (.mk ?_) .nil))
    · exact ⟨.obj _, .absent, .absent, .absent, .absent⟩
    · exact ⟨.obj _, .absent, .present (.str _), .absent, .absent⟩
    · exact ⟨.obj _, .absent, .absent, .absent, .present (.str _)⟩
  · -- read from the end, the first value of the key is behind its last one
    intro key
    by_cases ha : "a" = key
    · subst ha
      rfl
    · simp [Entries.get?, ha]

end EndpointTypings.Registry
