import EndpointTypings.Path
import Mathlib.Data.List.DropRight

/-!
# Components of paths

Paths are texts, and most of what is true of them is true of their components: those that the
segments name, behind the slash or the dot that a path starts with (`Path.components_eq`). The
parent of a path is put together in one of four ways (`Path.IsParent`), and in each it has all
components but the last (`Path.components_parent?`).

A path lies above another if its components are the first of the other's. The paths that
`Path.ancestors` lists are those above a path, and the path itself (`Path.of_mem_ancestors`).
-/

namespace EndpointTypings

/-! ## Pieces -/

namespace Text

variable {separator : Char} {piece : List Char} {pieces : List (List Char)}

/-- A text with a separator in it is split there, and then on both sides. -/
theorem split_append_cons (separator : Char) (cs rest : List Char) :
    split separator (cs ++ separator :: rest) = split separator cs ++ split separator rest := by
  induction cs with
  | nil => simp [split]
  | cons c cs ih =>
    rw [List.cons_append, split, split, ih]
    by_cases h : c = separator
    · simp [h]
    · cases hs : split separator cs with
      | nil => exact absurd hs (split_ne_nil separator cs)
      | cons piece pieces => simp [h]

/-- A text without a separator is one piece. -/
theorem split_of_not_mem (h : separator ∉ piece) : split separator piece = [piece] := by
  induction piece with
  | nil => rfl
  | cons c cs ih =>
    have hc : c ≠ separator := fun he => h (he ▸ List.mem_cons_self)
    have hcs : separator ∉ cs := fun hm => h (List.mem_cons_of_mem c hm)
    simp [split, hc, ih hcs]

/-- There is no separator in a piece. -/
theorem not_mem_of_mem_split {cs : List Char} (h : piece ∈ split separator cs) :
    separator ∉ piece := by
  induction cs generalizing piece with
  | nil =>
    obtain rfl : piece = [] := by simpa [split] using h
    exact List.not_mem_nil
  | cons c cs ih =>
    rw [split] at h
    split at h
    · rcases List.mem_cons.1 h with rfl | h
      · exact List.not_mem_nil
      · exact ih h
    · next hc =>
      cases hs : split separator cs with
      | nil => exact absurd hs (split_ne_nil separator cs)
      | cons first rest =>
        rw [hs] at h ih
        rcases List.mem_cons.1 h with rfl | h
        · rintro (_ | ⟨_, hm⟩)
          · exact hc rfl
          · exact ih List.mem_cons_self hm
        · exact ih (List.mem_cons_of_mem first h)

/-- Pieces without separators are those of the text they are put together to. -/
theorem split_unsplit (hne : pieces ≠ []) (h : ∀ piece ∈ pieces, separator ∉ piece) :
    split separator (unsplit separator pieces) = pieces := by
  induction pieces with
  | nil => exact absurd rfl hne
  | cons piece pieces ih =>
    have hpiece : separator ∉ piece := h piece List.mem_cons_self
    cases pieces with
    | nil => exact split_of_not_mem hpiece
    | cons next pieces =>
      rw [unsplit, split_append_cons, split_of_not_mem hpiece,
        ih (List.cons_ne_nil _ _) fun piece hm => h piece (List.mem_cons_of_mem _ hm)]
      · rfl
      · simp

/-- A piece put behind others stands behind a separator. -/
theorem unsplit_concat (hne : pieces ≠ []) (last : List Char) :
    unsplit separator (pieces ++ [last]) = unsplit separator pieces ++ separator :: last := by
  induction pieces with
  | nil => exact absurd rfl hne
  | cons piece pieces ih =>
    cases pieces with
    | nil => rfl
    | cons next pieces =>
      have hcons : ∀ more, unsplit separator (piece :: next :: more)
          = piece ++ separator :: unsplit separator (next :: more) := fun _ => rfl
      have hrest := ih (List.cons_ne_nil _ _)
      rw [List.cons_append] at hrest
      rw [List.cons_append, List.cons_append, hcons, hrest, hcons, List.append_assoc,
        List.cons_append]

/-- The last piece stands at the end of the text that pieces are put together to. -/
theorem suffix_unsplit_concat (separator : Char) (pieces : List (List Char)) (last : List Char) :
    last <:+ unsplit separator (pieces ++ [last]) := by
  by_cases hne : pieces = []
  · subst hne
    exact List.suffix_rfl
  · rw [unsplit_concat hne]
    exact (List.suffix_cons _ _).trans (List.suffix_append _ _)

end Text

namespace Path

variable {path parent above base : Path} {segments : List (List Char)}

/-! ## From segments to components -/

/-- The components that segments name. -/
def steps (segments : List (List Char)) : List Component :=
  segments.filterMap component?

/-- Segments one after the other name what each of them names. -/
@[simp] theorem steps_append (segments more : List (List Char)) :
    steps (segments ++ more) = steps segments ++ steps more :=
  List.filterMap_append

/-- A segment that names a component is passed. -/
theorem component?_eq_none_iff {segment : List Char} :
    component? segment = none ↔ isIdle segment = true := by
  unfold component?
  split_ifs with hidle <;> simp [hidle]

/-- An absolute path starts with an empty segment. -/
theorem segments_of_isAbsolute (h : path.isAbsolute = true) :
    ∃ rest, path.text.toList = '/' :: rest ∧ path.segments = [] :: Text.split '/' rest := by
  rw [isAbsolute, decide_eq_true_eq, List.head?_eq_some_iff] at h
  obtain ⟨rest, hrest⟩ := h
  exact ⟨rest, hrest, by rw [segments, hrest, Text.split, if_pos rfl]⟩

/-- There is no slash in a segment. -/
theorem slash_not_mem {segment : List Char} (h : segment ∈ path.segments) : '/' ∉ segment :=
  Text.not_mem_of_mem_split h

/-- What stands before the components that the segments of a path name. -/
def lead (path : Path) : List Component :=
  if path.isAbsolute then [.root]
  else if path.segments.head? = some ['.'] then [.current]
  else []

/-- The components of a path are those that its segments name, behind the slash or the dot that the
path starts with. -/
theorem components_eq (path : Path) : path.components = path.lead ++ steps path.segments := by
  have hdot : component? ['.'] = none := by decide
  rw [components, lead]
  cases path.isAbsolute with
  | true => rfl
  | false =>
    simp only [Bool.false_eq_true, if_false]
    split
    · next rest heq => simp [heq, steps, hdot]
    · next segments hne =>
      cases hs : path.segments with
      | nil => rfl
      | cons first rest =>
        have hfirst : first ≠ ['.'] := fun h => hne rest (h ▸ hs)
        simp [steps, hfirst]

/-- A text that is put together from segments behind a slash is an absolute path that names what
they name. -/
theorem components_rooted (hslash : ∀ segment ∈ segments, '/' ∉ segment) :
    (⟨String.ofList ('/' :: Text.unsplit '/' segments)⟩ : Path).components
      = .root :: steps segments := by
  have hempty : component? [] = none := by decide
  have hsplit : steps (Text.split '/' (Text.unsplit '/' segments)) = steps segments := by
    cases segments with
    | nil => simp [Text.unsplit, Text.split, steps, hempty]
    | cons first rest => rw [Text.split_unsplit (List.cons_ne_nil _ _) hslash]
  have hsegments : (⟨String.ofList ('/' :: Text.unsplit '/' segments)⟩ : Path).segments
      = [] :: Text.split '/' (Text.unsplit '/' segments) := by
    simp [Path.segments, Text.split]
  have hlead : (⟨String.ofList ('/' :: Text.unsplit '/' segments)⟩ : Path).lead = [.root] := by
    simp [lead, isAbsolute]
  rw [components_eq, hlead, hsegments, ← hsplit]
  simp [steps, hempty]

/-- A text that is put together from segments, of which the first is not empty, is a relative path
with these segments. -/
theorem segments_unrooted (hslash : ∀ segment ∈ segments, '/' ∉ segment)
    (hhead : segments.head? ≠ some []) (hne : segments ≠ []) :
    (⟨String.ofList (Text.unsplit '/' segments)⟩ : Path).segments = segments ∧
      (⟨String.ofList (Text.unsplit '/' segments)⟩ : Path).isAbsolute = false := by
  have hsegments : (⟨String.ofList (Text.unsplit '/' segments)⟩ : Path).segments = segments := by
    rw [Path.segments, String.toList_ofList, Text.split_unsplit hne hslash]
  refine ⟨hsegments, Bool.eq_false_iff.2 fun habsolute => hhead ?_⟩
  obtain ⟨rest, -, hrest⟩ := segments_of_isAbsolute habsolute
  rw [← hsegments, hrest]
  rfl

/-- A text that is put together from segments, of which the first is not empty, names what they
name, behind a dot that they start with. -/
theorem components_unrooted (hslash : ∀ segment ∈ segments, '/' ∉ segment)
    (hhead : segments.head? ≠ some []) :
    (⟨String.ofList (Text.unsplit '/' segments)⟩ : Path).components
      = (if segments.head? = some ['.'] then [.current] else []) ++ steps segments := by
  by_cases hne : segments = []
  · subst hne
    decide
  · obtain ⟨hsegments, hrelative⟩ := segments_unrooted hslash hhead hne
    rw [components_eq, lead, hsegments, hrelative]
    rfl

/-! ## Parents -/

/-- An idle segment at the end of segments is dropped, any other ends them. -/
theorem dropIdle_concat (segments : List (List Char)) (segment : List Char) :
    dropIdle (segments ++ [segment])
      = if isIdle segment then dropIdle segments else segments ++ [segment] :=
  List.rdropWhile_concat isIdle segments segment

/-- The last component is dropped where it stands, behind it what is idle. -/
theorem dropComponent?_concat (segments : List (List Char)) (segment : List Char) :
    dropComponent? (segments ++ [segment])
      = if isIdle segment then dropComponent? segments else some (dropIdle segments) := by
  rw [dropComponent?, dropIdle_concat]
  split_ifs with hidle
  · rfl
  · simp

/-- Segments without their idle end start as they do, name what they name, and end with a segment
that names something. -/
theorem dropIdle_spec (segments : List (List Char)) :
    dropIdle segments <+: segments ∧ steps (dropIdle segments) = steps segments ∧
      ∀ last ∈ (dropIdle segments).getLast?, isIdle last = false := by
  induction segments using List.reverseRecOn with
  | nil => exact ⟨List.prefix_rfl, rfl, by simp [dropIdle]⟩
  | append_singleton segments segment ih =>
    obtain ⟨hinit, hsteps, hlast⟩ := ih
    rw [dropIdle_concat]
    split_ifs with hidle
    · have hnone : component? segment = none := component?_eq_none_iff.2 hidle
      refine ⟨hinit.trans (List.prefix_append _ _), ?_, hlast⟩
      rw [hsteps, steps_append]
      simp [steps, hnone]
    · exact ⟨List.prefix_rfl, rfl, by simpa using hidle⟩

/-- Dropping the last component drops it from what segments name; where they name nothing there is
none. -/
theorem dropComponent?_spec (segments : List (List Char)) :
    (dropComponent? segments = none ∧ steps segments = []) ∨
      ∃ rest, dropComponent? segments = some rest ∧ rest <+: segments ∧ steps segments ≠ [] ∧
        steps rest = (steps segments).dropLast ∧ ∀ last ∈ rest.getLast?, isIdle last = false := by
  induction segments using List.reverseRecOn with
  | nil => exact .inl ⟨rfl, rfl⟩
  | append_singleton segments segment ih =>
    rw [dropComponent?_concat, steps_append]
    by_cases hidle : isIdle segment = true
    · -- an idle segment is no component
      have hnone : steps [segment] = [] := by simp [steps, component?_eq_none_iff.2 hidle]
      rw [if_pos hidle, hnone, List.append_nil]
      rcases ih with hnothing | ⟨rest, hrest, hinit, hlast⟩
      · exact .inl hnothing
      · exact .inr ⟨rest, hrest, hinit.trans (List.prefix_append _ _), hlast⟩
    · obtain ⟨component, hsome⟩ : ∃ component, component? segment = some component := by
        rw [← Option.ne_none_iff_exists']
        exact fun h => hidle (component?_eq_none_iff.1 h)
      have hone : steps [segment] = [component] := by simp [steps, hsome]
      obtain ⟨hinit, hsteps, hlast⟩ := dropIdle_spec segments
      rw [if_neg hidle, hone]
      refine .inr ⟨dropIdle segments, rfl, hinit.trans (List.prefix_append _ _), by simp, ?_, hlast⟩
      rw [hsteps, List.dropLast_concat]

/-- What is left when the last component is dropped. -/
theorem dropComponent?_eq_some {rest : List (List Char)} (h : dropComponent? segments = some rest) :
    rest <+: segments ∧ steps segments ≠ [] ∧ steps rest = (steps segments).dropLast ∧
      ∀ last ∈ rest.getLast?, isIdle last = false := by
  rcases dropComponent?_spec segments with ⟨hnone, -⟩ | ⟨found, hfound, hspec⟩
  · rw [hnone] at h
    cases h
  · obtain rfl : found = rest := Option.some.inj (hfound.symm.trans h)
    exact hspec

/-- Segments without a last component name nothing. -/
theorem dropComponent?_eq_none (h : dropComponent? segments = none) : steps segments = [] := by
  rcases dropComponent?_spec segments with ⟨-, hnothing⟩ | ⟨found, hfound, -⟩
  · exact hnothing
  · rw [hfound] at h
    cases h

/-- How the parent of a path is put together: behind the slash of an absolute path, behind the dot
that a relative path starts with, or from segments alone; a dot by itself has the empty parent. -/
inductive IsParent (path : Path) : Path → Prop
  /-- Behind a slash. -/
  | rooted {above : List (List Char)} (absolute : path.isAbsolute = true)
      (dropped : dropComponent? path.segments.tail = some above) :
      IsParent path ⟨String.ofList ('/' :: Text.unsplit '/' above)⟩
  /-- Behind a dot. -/
  | dotted {rest above : List (List Char)} (relative : path.isAbsolute = false)
      (dot : path.segments = ['.'] :: rest) (dropped : dropComponent? rest = some above) :
      IsParent path ⟨String.ofList (Text.unsplit '/' (['.'] :: above))⟩
  /-- A dot alone. -/
  | dot {rest : List (List Char)} (relative : path.isAbsolute = false)
      (dot : path.segments = ['.'] :: rest) (nothing : dropComponent? rest = none) :
      IsParent path ⟨""⟩
  /-- From segments alone. -/
  | plain {above : List (List Char)} (relative : path.isAbsolute = false)
      (noDot : path.segments.head? ≠ some ['.'])
      (dropped : dropComponent? path.segments = some above) :
      IsParent path ⟨String.ofList (Text.unsplit '/' above)⟩

/-- The parent of a path is put together in one of these ways. -/
theorem isParent_of_parent? (h : path.parent? = some parent) : IsParent path parent := by
  rw [parent?] at h
  cases habsolute : path.isAbsolute with
  | true =>
    simp only [habsolute, if_true, Option.map_eq_some_iff] at h
    obtain ⟨above, habove, rfl⟩ := h
    exact .rooted habsolute habove
  | false =>
    simp only [habsolute, Bool.false_eq_true, if_false] at h
    split at h
    · next rest hdot =>
      cases hdrop : dropComponent? rest with
      | none =>
        rw [hdrop] at h
        obtain rfl : (⟨""⟩ : Path) = parent := Option.some.inj h
        exact .dot habsolute hdot hdrop
      | some above =>
        rw [hdrop] at h
        obtain rfl := Option.some.inj h
        exact .dotted habsolute hdot hdrop
    · next segments hne =>
      rw [Option.map_eq_some_iff] at h
      obtain ⟨above, habove, rfl⟩ := h
      refine .plain habsolute (fun hhead => ?_) habove
      obtain ⟨rest, hrest⟩ := List.head?_eq_some_iff.1 hhead
      exact hne rest hrest

/-- A relative path starts with an empty segment only if it is empty. -/
theorem head?_segments_ne (h : path.isAbsolute = false) (hne : path.text ≠ "") :
    path.segments.head? ≠ some [] := by
  cases htext : path.text.toList with
  | nil => exact absurd (String.toList_eq_nil_iff.1 htext) hne
  | cons c cs =>
    have hc : c ≠ '/' := by
      rintro rfl
      simp [isAbsolute, htext] at h
    rw [segments, htext, Text.split, if_neg hc]
    split <;> simp

/-- There is no slash in the segments that are left when the last component is dropped, of a path or
behind its start. -/
theorem slash_not_mem_of_dropped {rest left : List (List Char)} (hrest : rest <:+ path.segments)
    (dropped : dropComponent? rest = some left) : ∀ segment ∈ left, '/' ∉ segment := fun _ hm =>
  slash_not_mem (hrest.subset ((dropComponent?_eq_some dropped).1.subset hm))

/-- The parent of a path has the components of the path without the last one. -/
theorem components_parent? (h : path.parent? = some parent) :
    path.components ≠ [] ∧ parent.components = path.components.dropLast := by
  rw [components_eq, lead]
  cases isParent_of_parent? h with
  | @rooted above absolute dropped =>
    obtain ⟨rest, -, hsegments⟩ := segments_of_isAbsolute absolute
    obtain ⟨hinit, hne, hdrop, -⟩ := dropComponent?_eq_some dropped
    have hslash : ∀ segment ∈ above, '/' ∉ segment :=
      slash_not_mem_of_dropped (List.tail_suffix _) dropped
    have hsteps : steps path.segments = steps path.segments.tail := by
      have hempty : steps [[]] = [] := by decide
      rw [hsegments, ← List.singleton_append, steps_append, hempty]
      rfl
    rw [if_pos absolute, components_rooted hslash, hdrop, hsteps, List.singleton_append]
    exact ⟨List.cons_ne_nil _ _, (List.dropLast_cons_of_ne_nil hne).symm⟩
  | @dotted rest above relative dot dropped =>
    obtain ⟨hinit, hne, hdrop, -⟩ := dropComponent?_eq_some dropped
    have hslash : ∀ segment ∈ ['.'] :: above, '/' ∉ segment := List.forall_mem_cons.2
      ⟨by decide, slash_not_mem_of_dropped (dot ▸ List.suffix_cons _ _) dropped⟩
    have hdot : ∀ segments, steps (['.'] :: segments) = steps segments := fun _ => rfl
    rw [components_unrooted hslash (by simp), dot, relative, hdot, hdot, hdrop]
    exact ⟨by simp, (List.dropLast_cons_of_ne_nil hne).symm⟩
  | @dot rest relative dot nothing =>
    have hnothing : steps rest = [] := dropComponent?_eq_none nothing
    have hdot : steps (['.'] :: rest) = [] := hnothing
    rw [relative, dot, hdot]
    exact ⟨by simp, rfl⟩
  | @plain above relative noDot dropped =>
    obtain ⟨hinit, hne, hdrop, -⟩ := dropComponent?_eq_some dropped
    have hslash : ∀ segment ∈ above, '/' ∉ segment :=
      slash_not_mem_of_dropped List.suffix_rfl dropped
    have htext : path.text ≠ "" := by
      intro htext
      rw [segments, htext] at hne
      exact hne rfl
    have hhead : ∀ first, above.head? = some first → path.segments.head? = some first := by
      intro first hfirst
      obtain ⟨rest, rfl⟩ := List.head?_eq_some_iff.1 hfirst
      obtain ⟨more, hmore⟩ := hinit
      rw [← hmore]
      rfl
    rw [components_unrooted hslash fun hempty => head?_segments_ne relative htext (hhead _ hempty),
      relative, if_neg noDot, if_neg fun hdot => noDot (hhead _ hdot), hdrop]
    exact ⟨by simpa using hne, rfl⟩

/-- A path that does not end with a slash, or is just one. -/
def IsTidy (path : Path) : Prop :=
  path.endsWithSlash = false ∨ path.text = "/"

/-- A path that does not end with a slash has none to drop. -/
theorem dropSlashes_eq_self (h : path.endsWithSlash = false) : path.dropSlashes = path := by
  have hdrop : path.text.toList.rdropWhile (· = '/') = path.text.toList := by
    rw [List.rdropWhile_eq_self_iff]
    intro hne hlast
    rw [endsWithSlash, decide_eq_false_iff_not] at h
    rw [decide_eq_true_eq] at hlast
    exact h (by rw [List.getLast?_eq_some_getLast hne, hlast])
  have hdef : path.dropSlashes = ⟨String.ofList (path.text.toList.rdropWhile (· = '/'))⟩ := rfl
  rw [hdef, hdrop, String.ofList_toList]

/-- Segments of which the last is not empty make a text that does not end with a slash. -/
theorem endsWithSlash_unsplit (start : List Char)
    (hslash : ∀ segment ∈ segments, '/' ∉ segment) (hlast : ∀ last ∈ segments.getLast?, last ≠ [])
    (hne : segments ≠ []) :
    (⟨String.ofList (start ++ Text.unsplit '/' segments)⟩ : Path).endsWithSlash = false := by
  obtain ⟨before, last, rfl⟩ := List.eq_nil_or_concat segments |>.resolve_left hne
  rw [List.concat_eq_append] at hslash hlast ⊢
  have hend : last ≠ [] := hlast last List.getLast?_concat
  obtain ⟨rest, hrest⟩ := (Text.suffix_unsplit_concat '/' before last).trans
    (List.suffix_append start _)
  rw [endsWithSlash, String.toList_ofList, decide_eq_false_iff_not, ← hrest,
    List.getLast?_append_of_ne_nil _ hend]
  intro hcontra
  exact hslash last (List.mem_append_right _ List.mem_cons_self) (List.mem_of_getLast? hcontra)

/-- The parent of a path is tidy. -/
theorem isTidy_parent? (h : path.parent? = some parent) : parent.IsTidy := by
  have hidle : isIdle [] = true := by decide
  cases isParent_of_parent? h with
  | @rooted above absolute dropped =>
    obtain ⟨hinit, -, -, hlast⟩ := dropComponent?_eq_some dropped
    by_cases hne : above = []
    · subst hne
      exact .inr rfl
    · have hslash : ∀ segment ∈ above, '/' ∉ segment :=
        slash_not_mem_of_dropped (List.tail_suffix _) dropped
      refine .inl (endsWithSlash_unsplit ['/'] hslash (fun last hm => ?_) hne)
      rintro rfl
      exact absurd hidle (by simp [hlast [] hm])
  | @dotted rest above relative dot dropped =>
    obtain ⟨hinit, -, -, hlast⟩ := dropComponent?_eq_some dropped
    have hslash : ∀ segment ∈ ['.'] :: above, '/' ∉ segment := List.forall_mem_cons.2
      ⟨by decide, slash_not_mem_of_dropped (dot ▸ List.suffix_cons _ _) dropped⟩
    refine .inl (endsWithSlash_unsplit [] hslash (fun last hm => ?_) (by simp))
    rintro rfl
    cases habove : above with
    | nil => simp [habove] at hm
    | cons first more =>
      rw [habove, List.getLast?_cons_cons] at hm
      exact absurd hidle (by simp [hlast [] (habove ▸ hm)])
  | dot => exact .inl rfl
  | @plain above relative noDot dropped =>
    obtain ⟨hinit, -, -, hlast⟩ := dropComponent?_eq_some dropped
    by_cases hne : above = []
    · subst hne
      exact .inl rfl
    · have hslash : ∀ segment ∈ above, '/' ∉ segment :=
        slash_not_mem_of_dropped List.suffix_rfl dropped
      refine .inl (endsWithSlash_unsplit [] hslash (fun last hm => ?_) hne)
      rintro rfl
      exact absurd hidle (by simp [hlast [] hm])

/-! ## Paths above -/

/-- A path whose components are the first of another's. -/
def IsAbove (above path : Path) : Prop :=
  ∃ more, more ≠ [] ∧ path.components = above.components ++ more

/-- What lies above a path above another lies above that one. -/
theorem IsAbove.trans (h : above.IsAbove base) (h' : base.IsAbove path) : above.IsAbove path := by
  obtain ⟨more, hne, hmore⟩ := h
  obtain ⟨more', -, hmore'⟩ := h'
  exact ⟨more ++ more', by simp [hne], by rw [hmore', hmore, List.append_assoc]⟩

/-- The parent of a path is above it. -/
theorem isAbove_of_parent? (h : path.parent? = some parent) : parent.IsAbove path := by
  obtain ⟨hne, hparent⟩ := components_parent? h
  refine ⟨[path.components.getLast hne], List.cons_ne_nil _ _, ?_⟩
  rw [hparent, List.dropLast_concat_getLast]

/-- The first path that is listed from one upwards is that path. -/
theorem ancestors_eq_cons (hne : path.text ≠ "") : ∃ outer, path.ancestors = path :: outer := by
  rw [ancestors, ancestorsFrom, if_neg (by simpa using hne)]
  split <;> exact ⟨_, rfl⟩

/-- The paths that are listed from a tidy path upwards are tidy, and each of them is that path or
above it. -/
theorem of_mem_ancestors (h : above ∈ path.ancestors) (htidy : path.IsTidy) :
    above.IsTidy ∧ (above = path ∨ above.IsAbove path) := by
  have hsteps : ∀ count path, above ∈ ancestorsFrom count path → path.IsTidy →
      above.IsTidy ∧ (above = path ∨ above.IsAbove path) := by
    intro count
    induction count with
    | zero => exact fun _ hm => absurd hm List.not_mem_nil
    | succ count ih =>
      intro path hm htidy
      rw [ancestorsFrom] at hm
      split_ifs at hm
      · exact absurd hm List.not_mem_nil
      · cases hparent : path.parent? with
        | none =>
          rw [hparent] at hm
          obtain rfl := List.mem_singleton.1 hm
          exact ⟨htidy, .inl rfl⟩
        | some parent =>
          rw [hparent] at hm
          rcases List.mem_cons.1 hm with rfl | hm
          · exact ⟨htidy, .inl rfl⟩
          · have habove := isAbove_of_parent? hparent
            obtain ⟨htidy', rfl | hfurther⟩ := ih parent hm (isTidy_parent? hparent)
            · exact ⟨htidy', .inr habove⟩
            · exact ⟨htidy', .inr (hfurther.trans habove)⟩
  exact hsteps _ path h htidy

end Path

end EndpointTypings
