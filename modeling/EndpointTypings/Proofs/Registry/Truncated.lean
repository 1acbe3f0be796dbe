import EndpointTypings.Proofs.Registry.Document

/-!
# Documents that go on or are cut off

A registry document says itself where it ends. `Registry.parse_append` says that behind a document
that is read only white space can stand, which changes nothing, and that a document whose last brace
is cut off, with as much before it as one likes, is refused: a file that was written in part is
never read as a smaller registry.

A document of a registry is an object, and an object is read up to its brace whatever follows
(`Json.parseChars_object`). A number would not do: behind `1` more digits can stand.
-/

namespace EndpointTypings

namespace Json

variable {s t before behind rest : List Char} {v : Json} {members merged : List (String × Json)}

/-- An object has parts. -/
theorem IsScalar.ne_obj (h : IsScalar s v) : v ≠ .obj members := by
  cases h with
  | null => exact nofun
  | true => exact nofun
  | false => exact nofun
  | string _ => exact nofun
  | @number s n _ _ hv =>
    rintro rfl
    unfold Numeral.value at hv
    split at hv
    · cases hv
    · obtain ⟨x, -, hx⟩ := Option.map_eq_some_iff.1 hv
      cases hx

/-- The document of an object is its members between braces, with white space around them. -/
theorem IsDocument.exists_braces (h : IsDocument s (.obj merged)) :
    ∃ before t behind members, s = before ++ '\x7b' :: (t ++ '\x7d' :: behind) ∧ IsBlank before ∧
      IsBlank behind ∧ IsContent (IsMember (IsValue (maxDepth - 1))) t members ∧
      Entries.Merges members merged := by
  cases h with
  | @mk before u behind _ hb hv ha =>
    have hlayer : IsLayer (IsValue (maxDepth - 1)) u (.obj merged) := hv
    cases hlayer with
    | scalar hs => exact absurd rfl hs.ne_obj
    | @object t members _ hc hm => exact ⟨before, t, behind, members, by simp, hb, ha, hc, hm⟩

/-- Nothing is left behind white space exactly if there is nothing else. -/
theorem skipSpace_eq_nil_iff : skipSpace s = [] ↔ IsBlank s := by
  rw [skipSpace, List.dropWhile_eq_nil_iff, isBlank_iff]

/-- Members between braces are read up to the brace that closes them, whatever follows it, and only
white space may follow. -/
theorem parseChars_object (hb : IsBlank before)
    (hc : IsContent (IsMember (IsValue (maxDepth - 1))) t members)
    (hm : Entries.Merges members merged) (rest : List Char) :
    parseChars (before ++ '\x7b' :: (t ++ '\x7d' :: rest)) = .ok v ↔
      v = .obj merged ∧ IsBlank rest := by
  have hread : readValue ((before ++ '\x7b' :: (t ++ '\x7d' :: rest)).length + 1) maxDepth
      (before ++ '\x7b' :: (t ++ '\x7d' :: rest)) = .ok (.obj merged, rest) := by
    rw [readValue_blank_append hb]
    refine readValue_object (reads_value _ (maxDepth - 1)) hc hm ?_
    simp only [List.length_append, List.length_cons]
    omega
  rw [parseChars, hread, bind_eq_ok_iff, ← skipSpace_eq_nil_iff]
  cases hrest : skipSpace rest with
  | nil => simp [hrest, eq_comm, pure, Except.pure]
  | cons c cs => simp [hrest]

-- other values have no such end: more digits can stand behind a number
example : (parse "1").isOk = true ∧ (parse ("1" ++ "2")).isOk = true := by
  decide +kernel

end Json

namespace Registry

open Json

/-- A text is refused: it is reported as malformed. -/
def Refuses (text : String) : Prop :=
  ∃ reason source, (parse text).mapError DocumentFault.toError
    = .error (.malformedRegistry reason source)

variable {text : String} {registry : Registry}

/-- A text is refused exactly if it is read as no registry. -/
theorem refuses_iff : Refuses text ↔ ∀ registry, parse text ≠ .ok registry := by
  constructor
  · rintro ⟨reason, source, hrefused⟩ registry hread
    rw [hread] at hrefused
    cases hrefused
  · intro hnone
    cases hread : parse text with
    | ok registry => exact absurd hread (hnone registry)
    | error fault =>
      refine ⟨fault.message, fault.source?, ?_⟩
      rw [hread]
      rfl

/-- A text that is read can be split at the brace that closes it: whatever follows that brace, the
text is read as the same registry if it is white space, and not read if it is anything else. -/
theorem exists_body (h : parse text = .ok registry) :
    ∃ body behind, text = body ++ "\x7d" ++ behind ∧
      ∀ (rest : String) (other : Registry), parse (body ++ "\x7d" ++ rest) = .ok other ↔
        other = registry ∧ IsBlank rest.toList := by
  obtain ⟨document, hdocument, hregistry⟩ := parse_eq_ok_iff.1 h
  have hvalue : ofJson document = .ok registry :=
    (ofJson_eq_ok_iff hdocument.distinct).2 hregistry
  obtain ⟨merged, rfl⟩ : ∃ merged, document = .obj merged := by
    obtain ⟨_, _⟩ := hregistry
    exact ⟨_, rfl⟩
  obtain ⟨before, t, behind, members, htext, hb, -, hc, hm⟩ := hdocument.exists_braces
  have htoList : ∀ rest : String,
      (String.ofList (before ++ '\x7b' :: t) ++ "\x7d" ++ rest).toList
        = before ++ '\x7b' :: (t ++ '\x7d' :: rest.toList) := by
    intro rest
    simp
  refine ⟨String.ofList (before ++ '\x7b' :: t), String.ofList behind, ?_, fun rest other => ?_⟩
  · rw [← String.toList_inj, htext, htoList, String.toList_ofList]
  · have hdocument' : ∀ v, IsDocument
        (String.ofList (before ++ '\x7b' :: t) ++ "\x7d" ++ rest).toList v ↔
          v = .obj merged ∧ IsBlank rest.toList := by
      intro v
      rw [htoList, ← parseChars_eq_ok_iff, parseChars_object hb hc hm]
    constructor
    · intro hread
      obtain ⟨v, hv, hother⟩ := parse_eq_ok_iff.1 hread
      obtain ⟨rfl, hrest⟩ := (hdocument' v).1 hv
      have hsame := (ofJson_eq_ok_iff hv.distinct).2 hother
      exact ⟨Except.ok.inj (hsame.symm.trans hvalue), hrest⟩
    · rintro ⟨rfl, hrest⟩
      rw [parse_eq_ofJson ((hdocument' _).2 ⟨rfl, hrest⟩), hvalue]

/-- A text behind a document that is read is read with it, as the same registry, exactly if it is
white space. -/
theorem parse_append_eq_ok_iff (h : parse text = .ok registry) (rest : String) {other : Registry} :
    parse (text ++ rest) = .ok other ↔ other = registry ∧ IsBlank rest.toList := by
  obtain ⟨body, behind, rfl, hread⟩ := exists_body h
  have hbehind : IsBlank behind.toList := ((hread behind registry).1 h).2
  have hblank : IsBlank (behind ++ rest).toList ↔ IsBlank rest.toList := by
    rw [String.toList_append]
    exact ⟨fun hall c hc => hall c (List.mem_append_right _ hc), hbehind.append⟩
  rw [String.append_assoc, hread, hblank]

/-- A document that is read is refused when one of its braces is cut off with all that follows. -/
theorem refuses_of_prefix {body behind front : String} (h : parse text = .ok registry)
    (htext : text = body ++ "\x7d" ++ behind) (hfront : front.toList <+: body.toList) :
    Refuses front := by
  obtain ⟨cut, hcut⟩ := hfront
  have hwhole : text = front ++ (String.ofList cut ++ "\x7d" ++ behind) := by
    rw [htext, ← String.toList_inj]
    simp [← hcut]
  rw [refuses_iff]
  intro small hsmall
  -- the brace would stand behind a document that is read
  rw [hwhole] at h
  have hblank := ((parse_append_eq_ok_iff hsmall _).1 h).2
  have hbrace := hblank '\x7d' (by simp)
  revert hbrace
  decide

/-- Behind a document that is read white space can stand, which changes nothing, and any other text
there makes it refused. The last thing in a document but white space is a brace, and a document is
refused when a brace is cut off with all that follows: it is never read as a smaller registry. -/
theorem parse_append (h : parse text = .ok registry) :
    (∀ rest : String,
      ((∃ other, parse (text ++ rest) = .ok other) ↔ IsBlank rest.toList) ∧
      (∀ other, parse (text ++ rest) = .ok other → other = registry) ∧
      (¬ IsBlank rest.toList → Refuses (text ++ rest))) ∧
    (∃ body behind, text = body ++ "\x7d" ++ behind ∧ IsBlank behind.toList) ∧
    ∀ body behind front : String, text = body ++ "\x7d" ++ behind →
      front.toList <+: body.toList → Refuses front := by
  refine ⟨fun rest => ?_, ?_, fun body behind front => refuses_of_prefix h⟩
  · have hread : ∀ other, parse (text ++ rest) = .ok other ↔
        other = registry ∧ IsBlank rest.toList := fun other => parse_append_eq_ok_iff h rest
    refine ⟨?_, fun other hother => ((hread other).1 hother).1, fun hrest => ?_⟩
    · constructor
      · rintro ⟨other, hother⟩
        exact ((hread other).1 hother).2
      · exact fun hrest => ⟨registry, (hread registry).2 ⟨rfl, hrest⟩⟩
    · exact refuses_iff.2 fun other hother => hrest ((hread other).1 hother).2
  · obtain ⟨body, behind, htext, hread⟩ := exists_body h
    exact ⟨body, behind, htext, ((hread behind registry).1 (htext ▸ h)).2⟩

/-- A document with braces in a key and in a text. -/
def bracedText : String :=
  "\x7b\"default\": \x7b\"\x7d\": \x7b\"desc\": \"\x7d\x7d\"\x7d\x7d"

/-- The last brace of the document closes it, not one in its texts: with a line end behind it the
document is read, without it or with one more it is refused. -/
theorem parse_append_bracedText :
    ∃ registry, parse (bracedText ++ "\x7d") = .ok registry ∧ registry.keys = ["\x7d"] ∧
      (∃ other, parse (bracedText ++ "\x7d" ++ "\r\n") = .ok other) ∧
      Refuses (bracedText ++ "\x7d" ++ "\x7d") ∧ Refuses bracedText := by
  have hkeys : (parse (bracedText ++ "\x7d")).map keys = .ok ["\x7d"] := by decide +kernel
  obtain ⟨registry, hread, hkey⟩ := map_eq_ok_iff.1 hkeys
  obtain ⟨happend, -, hcut⟩ := parse_append hread
  refine ⟨registry, hread, hkey, (happend "\r\n").1.2 ?_, (happend "\x7d").2.2 ?_, ?_⟩
  · exact skipSpace_eq_nil_iff.1 (by decide)
  · exact mt skipSpace_eq_nil_iff.2 (by decide)
  · exact hcut bracedText "" bracedText (String.append_empty).symm (List.prefix_refl _)

end Registry

end EndpointTypings
