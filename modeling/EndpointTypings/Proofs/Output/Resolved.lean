import EndpointTypings.Proofs.Path.Joined

/-!
# Where an output goes

What is joined to a base lies below it: the components of the base are the first of the joined path
(`Path.components_prefix_join`), though the text in between may gain a slash or lose an empty
segment. The stem of a source is its file name without the last extension (`Path.IsStemOf`), where a
dot at the start of the name does not count.

`Output.resolve_spec` says of any texts, however many slashes and dots are in them, what the path of
an output depends on and what it is called.
-/

namespace EndpointTypings

namespace Path

variable {base path : Path} {name stem : List Char}

/-! ## Below a base -/

/-- The segments of a base that stay when something is joined to it are all of them, but for an
empty one at the end. -/
theorem exists_segments_eq (base : Path) :
    ∃ last, base.segments = base.innerSegments ++ last ∧ (last = [] ∨ last = [[]]) := by
  rw [innerSegments]
  split_ifs with hall
  · refine ⟨[[]], ?_, .inr rfl⟩
    rcases List.eq_nil_or_concat base.text.toList with hnil | ⟨before, c, hconcat⟩
    · simp [Path.segments, hnil, Text.split]
    · rw [List.concat_eq_append] at hconcat
      obtain rfl : c = '/' := by simpa [hconcat] using hall
      have hsplit : base.segments = Text.split '/' before ++ [[]] := by
        rw [Path.segments, hconcat, Text.split_append_cons]
        rfl
      rw [hsplit, List.dropLast_concat]
  · exact ⟨[], (List.append_nil _).symm, .inl rfl⟩

/-- A base of which no segment stays has no component. -/
theorem components_of_innerSegments (h : base.innerSegments = []) : base.components = [] := by
  obtain ⟨last, hlast, hidle⟩ := exists_segments_eq base
  rw [h, List.nil_append] at hlast
  have hrelative : base.isAbsolute = false := by
    rw [Bool.eq_false_iff]
    intro habsolute
    -- a slash would be between two segments
    obtain ⟨rest, -, hrest⟩ := segments_of_isAbsolute habsolute
    rw [hlast] at hrest
    rcases hidle with rfl | rfl
    · cases hrest
    · exact Text.split_ne_nil '/' rest (List.cons.inj hrest).2.symm
  rw [components_eq, lead, hlast, hrelative]
  rcases hidle with rfl | rfl <;> rfl

/-- The components of a base are the first of those of what is joined to it. -/
theorem components_prefix_join (base : Path) (h : path.isAbsolute = false) :
    base.components <+: (base.join path).components := by
  by_cases hinner : base.innerSegments = []
  · rw [components_of_innerSegments hinner]
    exact List.nil_prefix
  · obtain ⟨hsegments, habsolute⟩ := segments_join base h
    obtain ⟨last, hlast, hidle⟩ := exists_segments_eq base
    have hsteps : steps base.segments = steps base.innerSegments := by
      rw [hlast, steps_append]
      rcases hidle with rfl | rfl
      · exact List.append_nil _
      · exact List.append_nil _
    -- what stands at the start of the base stands at the start of both
    have hlead : (base.join path).lead = base.lead := by
      rw [lead, lead, habsolute, hsegments, hlast, List.head?_append_of_ne_nil _ hinner,
        List.head?_append_of_ne_nil _ hinner]
    rw [components_eq, components_eq, hlead, hsegments, steps_append, hsteps, ← List.append_assoc]
    exact List.prefix_append _ _

/-- A text without a slash is a relative path. -/
theorem isAbsolute_of_not_mem (h : '/' ∉ path.text.toList) : path.isAbsolute = false := by
  rw [isAbsolute, decide_eq_false_iff_not]
  exact fun hhead => h (List.mem_of_mem_head? hhead)

/-! ## Stems -/

/-- What is left of a name without its last extension: what stands before the last dot, or all of it
if the name has no dot behind its first character. -/
inductive IsStemOf : List Char → List Char → Prop
  /-- Something stands before the last dot. -/
  | cut {stem extension : List Char} (hne : stem ≠ []) (hdot : '.' ∉ extension) :
      IsStemOf stem (stem ++ '.' :: extension)
  /-- There is no dot behind the first character. -/
  | whole {name : List Char} (hdot : '.' ∉ name.tail) : IsStemOf name name

/-- A name with no dot behind its first character is not cut. -/
theorem cutExtension_of_not_mem (h : '.' ∉ name.tail) : cutExtension name = (name, none) := by
  cases name with
  | nil => rfl
  | cons c cs =>
    have hcs : Text.split '.' cs = [cs] := Text.split_of_not_mem h
    rw [cutExtension, Text.split]
    split_ifs with hc
    · rw [hcs]
      rfl
    · rw [hcs]
      rfl

/-- A name with a dot behind its first character has a last one, and something stands before it. -/
theorem exists_last_dot (h : '.' ∈ name.tail) :
    ∃ before extension, before ≠ [] ∧ name = before ++ '.' :: extension ∧ '.' ∉ extension := by
  cases name with
  | nil => exact absurd h List.not_mem_nil
  | cons c cs =>
    -- the last dot is the first one from behind
    obtain ⟨behind, before, hreverse, hnot⟩ := List.eq_append_cons_of_mem (List.mem_reverse.2 h)
    rw [List.tail_cons, List.reverse_eq_iff] at hreverse
    refine ⟨c :: before.reverse, behind.reverse, List.cons_ne_nil _ _, ?_, ?_⟩
    · rw [hreverse]
      simp
    · rwa [List.mem_reverse]

/-- The stem of a name is what is left of it without its last extension. -/
theorem isStemOf_iff : IsStemOf stem name ↔ stem = (cutExtension name).1 := by
  constructor
  · intro h
    cases h with
    | cut hne hdot => rw [cutExtension_append _ hne hdot]
    | whole hdot => rw [cutExtension_of_not_mem hdot]
  · rintro rfl
    by_cases hdot : '.' ∈ name.tail
    · obtain ⟨before, extension, hne, rfl, hlast⟩ := exists_last_dot hdot
      rw [cutExtension_append _ hne hlast]
      exact .cut hne hlast
    · rw [cutExtension_of_not_mem hdot]
      exact .whole hdot

end Path

namespace Output

/-- The extension of an output is `ts`. With a target, neither the source nor the default directory
plays a part. Where the target is relative, or without one the default directory, the output lies
below the base; where it is absolute the base plays no part. Without a target the file name is that
of the source without its last extension, or `index`, and then `.d.ts`. -/
theorem resolve_spec (base : Path) (target : Option Path) (source : Path) (defaultDir : String) :
    (resolve base target source defaultDir).extension? = some "ts".toList ∧
    (target.isSome → ∀ source' defaultDir',
      resolve base target source' defaultDir' = resolve base target source defaultDir) ∧
    ((target.getD ⟨defaultDir⟩).isAbsolute = false →
      base.components <+: (resolve base target source defaultDir).components) ∧
    ((target.getD ⟨defaultDir⟩).isAbsolute = true →
      ∀ base', resolve base' target source defaultDir = resolve base target source defaultDir) ∧
    (target = none → ∃ stem,
      (resolve base target source defaultDir).fileName? = some (stem ++ ".d.ts".toList) ∧
      ((source.fileName? = none ∧ stem = "index".toList) ∨
        ∃ name, source.fileName? = some name ∧
          ∀ other, Path.IsStemOf other name ↔ other = stem)) := by
  refine ⟨extension?_resolve base target source defaultDir, ?_, ?_, ?_, ?_⟩
  · intro hsome source' defaultDir'
    obtain ⟨target, rfl⟩ := Option.isSome_iff_exists.1 hsome
    rfl
  · intro hrelative
    cases target with
    | some target =>
      have hprefix := Path.components_prefix_join base hrelative
      unfold resolve
      dsimp only
      split_ifs
      · exact hprefix
      · exact hprefix.trans (Path.components_prefix_join _ (by decide))
    | none =>
      have hname := Path.isAbsolute_of_not_mem (slash_not_mem_nameFor source)
      exact (Path.components_prefix_join base hrelative).trans
        (Path.components_prefix_join _ hname)
  · intro habsolute base'
    cases target with
    | some target =>
      have hjoin : ∀ base : Path, base.join target = target := fun _ => if_pos habsolute
      simp only [resolve, hjoin]
    | none =>
      have hjoin : ∀ base : Path, base.join ⟨defaultDir⟩ = ⟨defaultDir⟩ := fun _ => if_pos habsolute
      simp only [resolve, hjoin]
  · rintro rfl
    refine ⟨_, fileName?_resolve_none base source defaultDir, ?_⟩
    rw [Path.stem?]
    cases hname : source.fileName? with
    | none => exact .inl ⟨rfl, rfl⟩
    | some name => exact .inr ⟨name, rfl, fun other => Path.isStemOf_iff⟩

end Output

end EndpointTypings
