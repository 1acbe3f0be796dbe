import EndpointTypings.Output
import EndpointTypings.Proofs.Path.Components

/-!
# Joined paths and their names

A relative path seen from a base adds its segments behind those of the base (`Path.segments_join`),
so it ends as it did before. The file name is the last component if that is a name, and the
extension is what stands behind its last dot. For the path of an output that is always `ts`
(`Output.extension?_resolve`), whatever the base, the target and the source are.
-/

namespace EndpointTypings

namespace Path

variable {base path : Path} {name : List Char} {segments : List (List Char)}

/-! ## Joining -/

/-- The segments of a base that stay when something is joined to it: an empty one at the end takes
the first of what is joined. -/
def innerSegments (base : Path) : List (List Char) :=
  if base.text.toList.getLast?.all (· = '/') then base.segments.dropLast else base.segments

/-- The text of a relative path joined to a base: a slash comes between them unless the base is
empty or ends with one. -/
theorem toList_text_join (h : path.isAbsolute = false) :
    (base.join path).text.toList =
      if base.text.toList.getLast?.all (· = '/') then base.text.toList ++ path.text.toList
      else base.text.toList ++ '/' :: path.text.toList := by
  have hslash : "/".toList = ['/'] := rfl
  rw [join, if_neg (by simp [h])]
  split
  · next hget => simp [List.getLast?_eq_none_iff.1 hget]
  · next hget => simp [hget, String.toList_append]
  · next c hne hget =>
    have hc : c ≠ '/' := hne
    simp [hget, hc, String.toList_append, hslash]

/-- A relative path joined to a base has its segments behind those of the base, and is absolute if
the base is. -/
theorem segments_join (base : Path) (h : path.isAbsolute = false) :
    (base.join path).segments = base.innerSegments ++ path.segments ∧
      (base.join path).isAbsolute = base.isAbsolute := by
  rw [Path.segments, isAbsolute, toList_text_join h, innerSegments]
  rw [isAbsolute] at h
  rcases List.eq_nil_or_concat base.text.toList with hnil | ⟨before, c, hconcat⟩
  · have hinner : base.segments.dropLast = [] := by simp [Path.segments, hnil, Text.split]
    simpa [hnil, hinner, isAbsolute] using ⟨rfl, by simpa using h⟩
  · rw [List.concat_eq_append] at hconcat
    have habsolute : ∀ more : List Char,
        (base.text.toList ++ more).head? = base.text.toList.head? := fun more =>
      List.head?_append_of_ne_nil _ (by simp [hconcat])
    have hbase : base.isAbsolute = decide (base.text.toList.head? = some '/') := rfl
    rw [hbase]
    by_cases hc : c = '/'
    · -- the slash at the end of the base separates the two
      subst hc
      have hinner : base.segments.dropLast = Text.split '/' before := by
        rw [Path.segments, hconcat, Text.split_append_cons]
        exact List.dropLast_concat
      have hall : base.text.toList.getLast?.all (· = '/') = true := by simp [hconcat]
      rw [if_pos hall, if_pos hall, habsolute, hinner, hconcat, List.append_assoc,
        List.singleton_append, Text.split_append_cons]
      exact ⟨rfl, rfl⟩
    · have hall : ¬ base.text.toList.getLast?.all (· = '/') = true := by simp [hconcat, hc]
      rw [if_neg hall, if_neg hall, habsolute, Text.split_append_cons]
      exact ⟨rfl, rfl⟩

/-! ## File names -/

/-- The file name of a path is the last of what its segments name, if that is a name. -/
theorem fileName?_eq_some_iff :
    path.fileName? = some name ↔ (steps path.segments).getLast? = some (.normal name) := by
  have hlead : ∀ component ∈ path.lead, ∀ name, component ≠ .normal name := by
    rw [lead]
    split_ifs <;> simp
  rw [fileName?, components_eq]
  cases hsteps : steps path.segments with
  | nil =>
    rw [List.append_nil]
    constructor
    · intro h
      split at h
      · next found hlast =>
        exact absurd rfl (hlead _ (List.mem_of_getLast? hlast) found)
      · cases h
    · intro h
      cases h
  | cons first more =>
    rw [List.getLast?_append_of_ne_nil _ (List.cons_ne_nil _ _)]
    split
    · next found hlast => simp [hlast]
    · next hother =>
      refine ⟨by rintro ⟨⟩, fun h => ?_⟩
      exact absurd h (hother name)

/-- A path with a file name keeps it wherever it is seen from. -/
theorem fileName?_join (hname : path.fileName? = some name) :
    (base.join path).fileName? = some name := by
  cases habsolute : path.isAbsolute with
  | true => rwa [join, if_pos habsolute]
  | false =>
    rw [fileName?_eq_some_iff] at hname ⊢
    have hne : steps path.segments ≠ [] := by
      intro hnil
      rw [hnil] at hname
      cases hname
    rw [(segments_join base habsolute).1, steps_append, List.getLast?_append_of_ne_nil _ hne, hname]

/-- A text without a slash that is longer than two dots is a file name by itself. -/
theorem fileName?_of_not_mem (hslash : '/' ∉ path.text.toList)
    (hlong : 2 < path.text.toList.length) :
    path.fileName? = some path.text.toList := by
  have hidle : isIdle path.text.toList = false := by
    rw [isIdle, Bool.or_eq_false_iff, decide_eq_false_iff_not, decide_eq_false_iff_not]
    constructor <;> intro heq <;> simp [heq] at hlong
  have hup : path.text.toList ≠ ['.', '.'] := by
    intro heq
    simp [heq] at hlong
  rw [fileName?_eq_some_iff, Path.segments, Text.split_of_not_mem hslash]
  simp [steps, component?, hidle, hup]

/-- A name with a dot in it that is not at its start is cut at the last one. -/
theorem cutExtension_append (stem : List Char) {extension : List Char} (hne : stem ≠ [])
    (hdot : '.' ∉ extension) :
    cutExtension (stem ++ '.' :: extension) = (stem, some extension) := by
  have hsplit : Text.split '.' (stem ++ '.' :: extension) = Text.split '.' stem ++ [extension] := by
    rw [Text.split_append_cons, Text.split_of_not_mem hdot]
  cases hpieces : (Text.split '.' stem).reverse with
  | nil => exact absurd (List.reverse_eq_nil_iff.1 hpieces) (Text.split_ne_nil '.' stem)
  | cons first rest =>
    have hstem : Text.unsplit '.' (first :: rest).reverse = stem := by
      rw [← hpieces, List.reverse_reverse, Text.unsplit_split]
    rw [cutExtension, hsplit, List.reverse_append, List.reverse_singleton, List.singleton_append,
      hpieces]
    dsimp only
    rw [hstem, if_neg (by simpa using hne)]

/-- The stem of a name is the start of it. -/
theorem stem_prefix_self (name : List Char) : (cutExtension name).1 <+: name := by
  rw [cutExtension]
  split
  · next last first rest hpieces =>
    have hsplit : Text.split '.' name = (first :: rest).reverse ++ [last] := by
      rw [← List.reverse_reverse (Text.split '.' name), hpieces, List.reverse_cons]
    have hname : name = Text.unsplit '.' (first :: rest).reverse ++ '.' :: last := by
      conv_lhs => rw [← Text.unsplit_split '.' name, hsplit, Text.unsplit_concat (by simp)]
    dsimp only
    split_ifs
    · exact List.prefix_rfl
    · exact ⟨_, hname.symm⟩
  · exact List.prefix_rfl

/-- A file name has no slash in it. -/
theorem slash_not_mem_fileName (h : path.fileName? = some name) : '/' ∉ name := by
  rw [fileName?_eq_some_iff] at h
  obtain ⟨segment, hsegment, hname⟩ := List.mem_filterMap.1 (List.mem_of_getLast? h)
  rw [component?] at hname
  split_ifs at hname
  · cases hname
  obtain rfl : segment = name := Component.normal.inj (Option.some.inj hname)
  exact slash_not_mem hsegment

end Path

namespace Output

/-- The name of an output without a target: the stem of the source, or `index`, and what stands for
declarations. -/
def nameFor (source : Path) : Path :=
  ⟨String.ofList (source.stem?.getD ['i', 'n', 'd', 'e', 'x'] ++ ['.', 'd', '.', 't', 's'])⟩

/-- No slash is in the name of an output. -/
theorem slash_not_mem_nameFor (source : Path) : '/' ∉ (nameFor source).text.toList := by
  have hstem : '/' ∉ source.stem?.getD ['i', 'n', 'd', 'e', 'x'] := by
    rw [Path.stem?]
    cases hname : source.fileName? with
    | none => decide
    | some name =>
      exact fun hm => Path.slash_not_mem_fileName hname ((Path.stem_prefix_self name).subset hm)
  rw [nameFor, String.toList_ofList]
  simpa using hstem

/-- Without a target, the file name of an output is made from the source. -/
theorem fileName?_resolve_none (base source : Path) (defaultDir : String) :
    (resolve base none source defaultDir).fileName? =
      some (source.stem?.getD ['i', 'n', 'd', 'e', 'x'] ++ ['.', 'd', '.', 't', 's']) := by
  have hresolve : resolve base none source defaultDir
      = (base.join ⟨defaultDir⟩).join (nameFor source) := rfl
  have hname := Path.fileName?_of_not_mem (slash_not_mem_nameFor source) (by simp [nameFor])
  rw [hresolve, Path.fileName?_join hname, nameFor, String.toList_ofList]

/-- The extension of an output is `ts`. -/
theorem extension?_resolve (base : Path) (target : Option Path) (source : Path)
    (defaultDir : String) :
    (resolve base target source defaultDir).extension? = some ['t', 's'] := by
  cases target with
  | some target =>
    unfold resolve
    dsimp only
    split_ifs with hts
    · -- the target itself is the file
      rw [Path.extension?, Option.bind_eq_some_iff] at hts ⊢
      obtain ⟨name, hname, hcut⟩ := hts
      exact ⟨name, Path.fileName?_join hname, hcut⟩
    · have hindex : indexName.fileName? = some "index.d.ts".toList := by decide
      rw [Path.extension?, Path.fileName?_join hindex]
      decide
  | none =>
    rw [Path.extension?, fileName?_resolve_none]
    generalize source.stem?.getD ['i', 'n', 'd', 'e', 'x'] = stem
    -- the stem and a `d` stand before the last dot
    have hcut : Path.cutExtension ((stem ++ ['.', 'd']) ++ '.' :: ['t', 's'])
        = (stem ++ ['.', 'd'], some ['t', 's']) := Path.cutExtension_append _ (by simp) (by decide)
    rw [List.append_assoc] at hcut
    exact congrArg Prod.snd hcut

end Output

end EndpointTypings
