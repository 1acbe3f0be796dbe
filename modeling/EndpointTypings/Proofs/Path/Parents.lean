import EndpointTypings.Proofs.Path.Components

/-!
# The segments of a parent

A folder is reached over the segments of its path that name something (`Path.named`); the idle ones
lead nowhere. The parent of a path has all of them but the last (`Path.named_parent?`), starts as
the path does (`Path.prefix_of_parent?`) and ends with one of them, if it has any
(`Path.endsNamed_parent?`). Where there is no parent nothing is named
(`Path.named_of_parent?_eq_none`).
-/

namespace EndpointTypings

namespace Text

variable {separator : Char} {pieces before : List (List Char)}

/-- The first of some pieces make a text that all of them start with. -/
theorem prefix_unsplit (h : before <+: pieces) :
    unsplit separator before <+: unsplit separator pieces := by
  induction before generalizing pieces with
  | nil => exact List.nil_prefix
  | cons piece before ih =>
    obtain ⟨more, rfl⟩ := h
    cases before with
    | nil =>
      cases more with
      | nil => exact List.prefix_rfl
      | cons next more => exact List.prefix_append _ _
    | cons next before =>
      have hrest : unsplit separator (next :: before) <+:
          unsplit separator (next :: before ++ more) := ih (List.prefix_append _ _)
      exact (List.prefix_append_right_inj piece).2 (List.cons_prefix_cons.2 ⟨rfl, hrest⟩)

end Text

namespace Path

variable {path parent : Path} {segments before : List (List Char)}

/-! ## What segments name -/

/-- The segments that name something. -/
def named (segments : List (List Char)) : List (List Char) :=
  segments.filter fun segment => !isIdle segment

/-- An idle segment names nothing, any other names something. -/
theorem named_cons (segment : List Char) (rest : List (List Char)) :
    named (segment :: rest) = if isIdle segment then named rest else segment :: named rest := by
  rw [named, List.filter_cons]
  cases isIdle segment <;> rfl

/-- Segments one after the other name what each of them names. -/
@[simp] theorem named_append (segments more : List (List Char)) :
    named (segments ++ more) = named segments ++ named more :=
  List.filter_append segments more

/-- The segment that names a component. -/
def Component.segment : Component → List Char
  | .root => []
  | .current => ['.']
  | .parent => ['.', '.']
  | .normal name => name

/-- The components that segments name are those segments. -/
theorem map_segment_steps (segments : List (List Char)) :
    (steps segments).map Component.segment = named segments := by
  induction segments with
  | nil => rfl
  | cons segment segments ih =>
    rw [steps, List.filterMap_cons, named_cons]
    rw [steps] at ih
    by_cases hidle : isIdle segment = true
    · simp [component?, hidle, ih]
    · by_cases hup : segment = ['.', '.']
      · subst hup
        simpa [component?, hidle, Component.segment] using ih
      · simpa [component?, hidle, hup, Component.segment] using ih

/-- Segments name at most as much as there are of them. -/
theorem length_named_le (segments : List (List Char)) :
    (named segments).length ≤ segments.length :=
  List.length_filter_le _ _

/-- A path that ends with a segment that names something, or names nothing at all. -/
def EndsNamed (path : Path) : Prop :=
  named path.segments = [] ∨
    ∃ before last, path.segments = before ++ [last] ∧ isIdle last = false

/-! ## Parents -/

/-- The segments of a parent: idle ones, and then those of the path without the last that names
something and what is idle around it. -/
theorem segments_parent? (h : path.parent? = some parent) :
    parent.isAbsolute = path.isAbsolute ∧
      ∃ idle above, parent.segments = idle ++ above ∧ named idle = [] ∧
        named above = (named path.segments).dropLast ∧
        ∀ last ∈ above.getLast?, isIdle last = false := by
  have hnamed : ∀ {segments above : List (List Char)},
      steps above = (steps segments).dropLast → named above = (named segments).dropLast := by
    intro segments above hsteps
    rw [← map_segment_steps, ← map_segment_steps, hsteps, List.map_dropLast]
  cases isParent_of_parent? h with
  | @rooted above absolute dropped =>
    obtain ⟨rest, -, hsegments⟩ := segments_of_isAbsolute absolute
    obtain ⟨hinit, -, hdrop, hlast⟩ := dropComponent?_eq_some dropped
    have hslash : ∀ segment ∈ above, '/' ∉ segment :=
      slash_not_mem_of_dropped (List.tail_suffix _) dropped
    have htail : named path.segments = named path.segments.tail := by
      rw [hsegments]
      rfl
    have hparent : (⟨String.ofList ('/' :: Text.unsplit '/' above)⟩ : Path).segments
        = [] :: Text.split '/' (Text.unsplit '/' above) := by
      simp [Path.segments, Text.split]
    rw [hparent, htail]
    have hrooted : (⟨String.ofList ('/' :: Text.unsplit '/' above)⟩ : Path).isAbsolute = true := by
      simp [isAbsolute]
    refine ⟨hrooted.trans absolute.symm, ?_⟩
    by_cases hne : above = []
    · subst hne
      exact ⟨[[], []], [], rfl, rfl, hnamed hdrop, by simp⟩
    · rw [Text.split_unsplit hne hslash]
      exact ⟨[[]], above, rfl, rfl, hnamed hdrop, hlast⟩
  | @dotted rest above relative dot dropped =>
    obtain ⟨hinit, -, hdrop, hlast⟩ := dropComponent?_eq_some dropped
    have hslash : ∀ segment ∈ ['.'] :: above, '/' ∉ segment := List.forall_mem_cons.2
      ⟨by decide, slash_not_mem_of_dropped (dot ▸ List.suffix_cons _ _) dropped⟩
    obtain ⟨hsegments, hrelative⟩ := segments_unrooted hslash (by simp) (by simp)
    have htail : named path.segments = named rest := by
      rw [dot]
      rfl
    rw [hsegments, hrelative, relative, htail]
    exact ⟨rfl, [['.']], above, rfl, rfl, hnamed hdrop, hlast⟩
  | @dot rest relative dot nothing =>
    have hnothing : named path.segments = [] := by
      rw [dot, ← map_segment_steps]
      exact congrArg _ (dropComponent?_eq_none nothing)
    rw [relative, hnothing]
    exact ⟨rfl, [[]], [], rfl, rfl, rfl, by simp⟩
  | @plain above relative noDot dropped =>
    obtain ⟨hinit, hsome, hdrop, hlast⟩ := dropComponent?_eq_some dropped
    have hslash : ∀ segment ∈ above, '/' ∉ segment :=
      slash_not_mem_of_dropped List.suffix_rfl dropped
    have htext : path.text ≠ "" := by
      intro htext
      rw [segments, htext] at hsome
      exact hsome rfl
    by_cases hne : above = []
    · subst hne
      exact ⟨relative.symm ▸ rfl, [[]], [], rfl, rfl, hnamed hdrop, by simp⟩
    · have hhead : above.head? ≠ some [] := by
        intro hempty
        obtain ⟨more, hmore⟩ := hinit
        refine head?_segments_ne relative htext ?_
        rw [← hmore, List.head?_append_of_ne_nil _ hne, hempty]
      obtain ⟨hsegments, hrelative⟩ := segments_unrooted hslash hhead hne
      rw [hsegments, hrelative, relative]
      exact ⟨rfl, [], above, rfl, rfl, hnamed hdrop, hlast⟩

/-- The parent of a path names all that the path names but the last. -/
theorem named_parent? (h : path.parent? = some parent) :
    named parent.segments = (named path.segments).dropLast := by
  obtain ⟨-, idle, above, hsegments, hidle, hnamed, -⟩ := segments_parent? h
  rw [hsegments, named_append, hidle, List.nil_append, hnamed]

/-- The parent of a path ends with a segment that names something, or names nothing. -/
theorem endsNamed_parent? (h : path.parent? = some parent) : parent.EndsNamed := by
  obtain ⟨-, idle, above, hsegments, hidle, -, hlast⟩ := segments_parent? h
  rcases List.eq_nil_or_concat above with rfl | ⟨before, last, rfl⟩
  · exact .inl (by rw [hsegments, List.append_nil, hidle])
  · rw [List.concat_eq_append] at hsegments hlast
    exact .inr ⟨idle ++ before, last, by rw [hsegments, List.append_assoc],
      hlast last List.getLast?_concat⟩

/-- A path without a parent names nothing. -/
theorem named_of_parent?_eq_none (h : path.parent? = none) : named path.segments = [] := by
  have hnamed : ∀ {segments : List (List Char)}, steps segments = [] → named segments = [] := by
    intro segments hsteps
    rw [← map_segment_steps, hsteps]
    rfl
  rw [parent?] at h
  cases habsolute : path.isAbsolute with
  | true =>
    obtain ⟨rest, -, hsegments⟩ := segments_of_isAbsolute habsolute
    simp only [habsolute, if_true, Option.map_eq_none_iff] at h
    have htail := hnamed (dropComponent?_eq_none h)
    rw [hsegments] at htail ⊢
    exact htail
  | false =>
    simp only [habsolute, Bool.false_eq_true, if_false] at h
    split at h
    · split at h <;> cases h
    · exact hnamed (dropComponent?_eq_none (Option.map_eq_none_iff.1 h))

/-- A path starts as its parent does. -/
theorem prefix_of_parent? (h : path.parent? = some parent) :
    parent.text.toList <+: path.text.toList := by
  have htext : Text.unsplit '/' path.segments = path.text.toList := Text.unsplit_split '/' _
  cases isParent_of_parent? h with
  | @rooted above absolute dropped =>
    obtain ⟨rest, hrest, hsegments⟩ := segments_of_isAbsolute absolute
    obtain ⟨hinit, -⟩ := dropComponent?_eq_some dropped
    rw [hsegments, List.tail_cons] at hinit
    rw [String.toList_ofList, hrest, List.cons_prefix_cons]
    have hstarts : Text.unsplit '/' above <+: Text.unsplit '/' (Text.split '/' rest) :=
      Text.prefix_unsplit hinit
    rw [Text.unsplit_split] at hstarts
    exact ⟨rfl, hstarts⟩
  | @dotted rest above relative dot dropped =>
    obtain ⟨hinit, -⟩ := dropComponent?_eq_some dropped
    rw [String.toList_ofList, ← htext, dot]
    exact Text.prefix_unsplit (List.cons_prefix_cons.2 ⟨rfl, hinit⟩)
  | dot => exact List.nil_prefix
  | @plain above relative noDot dropped =>
    obtain ⟨hinit, -⟩ := dropComponent?_eq_some dropped
    rw [String.toList_ofList, ← htext]
    exact Text.prefix_unsplit hinit

/-- A path is listed alone if it names at most one segment, or in front of those that are listed
from its parent. -/
theorem ancestorsFrom_succ {steps : Nat} (hne : path.text ≠ "")
    (hsteps : (named path.segments).length ≤ steps) :
    (path.ancestorsFrom (steps + 1) = [path] ∧ (named path.segments).dropLast = []) ∨
      ∃ parent, path.parent? = some parent ∧ parent.text ≠ "" ∧
        path.ancestorsFrom (steps + 1) = path :: parent.ancestorsFrom steps ∧
        (named parent.segments).length < steps := by
  rw [ancestorsFrom, if_neg (by simpa using hne)]
  cases hparent : path.parent? with
  | none =>
    rw [named_of_parent?_eq_none hparent]
    exact .inl ⟨rfl, rfl⟩
  | some parent =>
    have hnamed := named_parent? hparent
    dsimp only
    cases steps with
    | zero =>
      have hnil : named path.segments = [] := List.length_eq_zero_iff.1 (Nat.le_zero.1 hsteps)
      rw [hnil]
      exact .inl ⟨rfl, rfl⟩
    | succ steps =>
      by_cases hempty : parent.text = ""
      · have hnil : named parent.segments = [] := by
          rw [segments, hempty]
          rfl
        have hnone : parent.ancestorsFrom (steps + 1) = [] := by simp [ancestorsFrom, hempty]
        rw [← hnamed, hnil, hnone]
        exact .inl ⟨rfl, rfl⟩
      · refine .inr ⟨parent, rfl, hempty, rfl, ?_⟩
        rw [hnamed, List.length_dropLast]
        omega

end Path

end EndpointTypings
