import EndpointTypings.Proofs.Interface.Header

/-!
# Where the comment of a method ends

Each method stands under a comment that shows the description and the server name of its endpoint,
and both are arbitrary texts of the registry. `Interface.comment_closes` says which of them spoil
the file: the comment ends where the template closes it exactly if neither text holds the mark that
ends a comment, and otherwise it ends early, at the first mark in the description, or in the server
name if the description has none. No mark arises across the border between a text and the template.

The reason is the same for all borders (`Text.infix_append_cons_iff`): before each text stands a
space and behind it a line feed, and neither is in the mark.
-/

namespace EndpointTypings

namespace Interface

/-- A method up to the mark that closes its comment. -/
def comment (descriptor : Descriptor) : String :=
  String.intercalate "\n" ["  /**", descriptionLine descriptor.desc,
    apiNameLine descriptor.apiName, paramsLine descriptor.params, "   "]

/-- A text is there and holds the mark that ends a comment. -/
def HoldsMark (text : Option String) : Prop :=
  ∃ s ∈ text, ['*', '/'] <:+: s.toList

variable {descriptor : Descriptor} {desc apiName : String} {place : Nat}

/-- A method is its comment, the mark that closes it, and its key on a line of its own. -/
theorem signature_eq_comment (space : Option AmbientNamespace) (key : String)
    (descriptor : Descriptor) : ∃ rest, signature space key descriptor
      = comment descriptor ++ "*/" ++ "\n  " ++ key ++ "(" ++ rest := by
  refine ⟨"\n" ++ String.intercalate "\n" [
    "    opts: " ++ qualified space "IApiOpts"
      ++ "<" ++ ParamSpec.render? descriptor.params ++ ">,",
    "  ): Promise<" ++ qualified space "IApiSuccess"
      ++ "<" ++ responseType descriptor.res ++ ">>;"], ?_⟩
  unfold signature comment
  have hclose : "   */" = "   " ++ "*/" := by decide
  have hkey : "\n  " = "\n" ++ "  " := by decide
  simp only [String.intercalate_cons_cons, String.intercalate_singleton, hclose, hkey,
    String.append_assoc]

/-- The characters of a comment, with line feeds between its lines. -/
theorem toList_comment (descriptor : Descriptor) : (comment descriptor).toList
    = "  /**".toList ++ '\n' :: ((descriptionLine descriptor.desc).toList
      ++ '\n' :: ((apiNameLine descriptor.apiName).toList
        ++ '\n' :: ((paramsLine descriptor.params).toList ++ '\n' :: "   ".toList))) := by
  unfold comment
  simp [String.intercalate_cons_cons]

/-! ## The mark in the lines of a comment -/

/-- There is no space in the mark. -/
theorem space_not_mem_mark : ' ' ∉ ['*', '/'] := by decide

/-- There is no line feed in the mark. -/
theorem feed_not_mem_mark : '\n' ∉ ['*', '/'] := by decide

/-- The mark stands in the line of a description exactly if it stands in the description. -/
theorem mark_infix_descriptionLine (desc : Option String) :
    ['*', '/'] <:+: (descriptionLine desc).toList ↔ HoldsMark desc := by
  have hstar : ¬ ['*', '/'] <:+: "   *".toList := by decide
  cases desc with
  | none => simpa [descriptionLine, HoldsMark] using hstar
  | some desc =>
    have hholds : HoldsMark (some desc) ↔ ['*', '/'] <:+: desc.toList := by simp [HoldsMark]
    rw [hholds, descriptionLine]
    split_ifs with hempty
    · subst hempty
      exact ⟨fun h => absurd h hstar, fun h => absurd h (by simp)⟩
    · have hline : ("   * " ++ desc).toList = "   *".toList ++ ' ' :: desc.toList := by simp
      rw [hline, Text.infix_append_cons_iff space_not_mem_mark, or_iff_right hstar]

/-- The mark stands in the line of a server name exactly if it stands in the name. -/
theorem mark_infix_apiNameLine (apiName : Option String) :
    ['*', '/'] <:+: (apiNameLine apiName).toList ↔ HoldsMark apiName := by
  have hlead : ¬ ['*', '/'] <:+: "   * apiName:".toList := by decide
  cases apiName with
  | none =>
    have hline : ¬ ['*', '/'] <:+: "   * apiName: undefined".toList := by decide
    simpa [apiNameLine, HoldsMark] using hline
  | some apiName =>
    have hholds : HoldsMark (some apiName) ↔ ['*', '/'] <:+: apiName.toList := by simp [HoldsMark]
    have hline : ("   * apiName: " ++ apiName).toList
        = "   * apiName:".toList ++ ' ' :: apiName.toList := by simp
    rw [hholds, apiNameLine, hline, Text.infix_append_cons_iff space_not_mem_mark,
      or_iff_right hlead]

/-- The mark does not stand in the line of the parameters. -/
theorem not_mark_infix_paramsLine (params : Option ParamSpec) :
    ¬ ['*', '/'] <:+: (paramsLine params).toList := by
  intro h
  unfold paramsLine at h
  split_ifs at h
  · exact absurd h (by decide)
  · exact absurd h (by decide)

/-- The mark stands in a comment, or across the start of the mark that closes it, exactly if it
stands in one of its texts. -/
theorem mark_infix_comment (descriptor : Descriptor) :
    ['*', '/'] <:+: (comment descriptor).toList ++ ['*', '/'].dropLast ↔
      HoldsMark descriptor.desc ∨ HoldsMark descriptor.apiName := by
  have hopen : ¬ ['*', '/'] <:+: "  /**".toList := by decide
  have hend : ¬ ['*', '/'] <:+: "   ".toList ++ ['*', '/'].dropLast := by decide
  rw [toList_comment]
  simp only [List.append_assoc, List.cons_append, Text.infix_append_cons_iff feed_not_mem_mark,
    mark_infix_descriptionLine, mark_infix_apiNameLine, or_iff_right hopen,
    or_iff_right (not_mark_infix_paramsLine descriptor.params), or_iff_left hend]

/-! ## Where the comment ends -/

/-- The first mark in a description is the first one in the comment. -/
theorem firstAt_comment_of_desc (hdesc : descriptor.desc = some desc)
    (h : Text.FirstAt ['*', '/'] desc.toList place) (after : List Char) :
    Text.FirstAt ['*', '/'] ((comment descriptor).toList ++ after)
      ("  /**\n   * ".length + place) := by
  have hne : desc ≠ "" := by
    rintro rfl
    simpa using h.1
  have hlead : ¬ ['*', '/'] <:+: "  /**\n   *".toList := by decide
  obtain ⟨more, hmore⟩ : ∃ more, (comment descriptor).toList ++ after
      = "  /**\n   *".toList ++ ' ' :: (desc.toList ++ more) := by
    rw [toList_comment, hdesc, descriptionLine, if_neg hne]
    exact ⟨'\n' :: ((apiNameLine descriptor.apiName).toList
      ++ '\n' :: ((paramsLine descriptor.params).toList ++ '\n' :: ("   ".toList ++ after))),
      by simp⟩
  rw [hmore]
  exact (h.append (by decide) more).behind (by decide) space_not_mem_mark hlead

/-- If there is no mark in the description, the first one in a server name is the first one in the
comment. -/
theorem firstAt_comment_of_apiName (hdesc : ¬ HoldsMark descriptor.desc)
    (hname : descriptor.apiName = some apiName)
    (h : Text.FirstAt ['*', '/'] apiName.toList place) (after : List Char) :
    Text.FirstAt ['*', '/'] ((comment descriptor).toList ++ after)
      (("  /**\n" ++ descriptionLine descriptor.desc ++ "\n   * apiName: ").length + place) := by
  have hlead : ¬ ['*', '/'] <:+: "  /**".toList ++ '\n' :: ((descriptionLine descriptor.desc).toList
      ++ '\n' :: "   * apiName:".toList) := by
    have hopen : ¬ ['*', '/'] <:+: "  /**".toList := by decide
    have hline : ¬ ['*', '/'] <:+: "   * apiName:".toList := by decide
    rw [Text.infix_append_cons_iff feed_not_mem_mark, Text.infix_append_cons_iff feed_not_mem_mark,
      mark_infix_descriptionLine]
    exact not_or.2 ⟨hopen, not_or.2 ⟨hdesc, hline⟩⟩
  obtain ⟨more, hmore⟩ : ∃ more, (comment descriptor).toList ++ after
      = "  /**".toList ++ '\n' :: ((descriptionLine descriptor.desc).toList
        ++ '\n' :: "   * apiName:".toList) ++ ' ' :: (apiName.toList ++ more) := by
    rw [toList_comment, hname, apiNameLine]
    exact ⟨'\n' :: ((paramsLine descriptor.params).toList ++ '\n' :: ("   ".toList ++ after)),
      by simp⟩
  have hlength : ("  /**\n" ++ descriptionLine descriptor.desc ++ "\n   * apiName: ").length
      = ("  /**".toList ++ '\n' :: ((descriptionLine descriptor.desc).toList
        ++ '\n' :: "   * apiName:".toList)).length + 1 := by
    rw [← String.length_toList]
    simp
  rw [hmore, hlength]
  exact (h.append (by decide) more).behind (by decide) space_not_mem_mark hlead

/-- Behind a comment the mark stands, so a first mark elsewhere stands within the comment. -/
theorem lt_length_comment {after : List Char}
    (hmark : HoldsMark descriptor.desc ∨ HoldsMark descriptor.apiName)
    (h : Text.FirstAt ['*', '/'] ((comment descriptor).toList ++ (['*', '/'] ++ after)) place) :
    place < (comment descriptor).length := by
  have hother : ['*', '/'] <+:
      ((comment descriptor).toList ++ (['*', '/'] ++ after)).drop (comment descriptor).length := by
    rw [← String.length_toList, List.drop_left]
    exact List.prefix_append _ after
  refine Nat.lt_of_le_of_ne (h.le hother) ?_
  rintro rfl
  rw [← List.append_assoc, ← String.length_toList, Text.firstAt_append_iff (by decide),
    mark_infix_comment] at h
  exact h hmark

/-- Every endpoint is given a method that stands under a comment. The first mark in the method
closes the comment where the template does, just before the line of the key, exactly if neither the
description nor the server name holds the mark. Otherwise the comment ends early, at the first mark
in the description, or at the first one in the server name if the description has none. -/
theorem comment_closes (space : Option AmbientNamespace) (key : String) (descriptor : Descriptor) :
    ∃ text rest, (Method.ofEndpoint space key descriptor).render = .ok text ∧
      text = comment descriptor ++ "*/" ++ "\n  " ++ key ++ "(" ++ rest ∧
      (Text.FirstAt ['*', '/'] text.toList (comment descriptor).length ↔
        ¬ HoldsMark descriptor.desc ∧ ¬ HoldsMark descriptor.apiName) ∧
      (HoldsMark descriptor.desc → ∃ desc ∈ descriptor.desc, ∃ place,
        Text.FirstAt ['*', '/'] desc.toList place ∧
        Text.FirstAt ['*', '/'] text.toList ("  /**\n   * ".length + place) ∧
        "  /**\n   * ".length + place < (comment descriptor).length) ∧
      (¬ HoldsMark descriptor.desc → HoldsMark descriptor.apiName →
        ∃ apiName ∈ descriptor.apiName, ∃ place,
          Text.FirstAt ['*', '/'] apiName.toList place ∧
          Text.FirstAt ['*', '/'] text.toList
            (("  /**\n" ++ descriptionLine descriptor.desc ++ "\n   * apiName: ").length + place) ∧
          ("  /**\n" ++ descriptionLine descriptor.desc ++ "\n   * apiName: ").length + place
            < (comment descriptor).length) := by
  obtain ⟨rest, hrest⟩ := signature_eq_comment space key descriptor
  have hrender : (Method.ofEndpoint space key descriptor).render
      = .ok (signature space key descriptor) :=
    renderMethod_eq { Config.standard with ambientNamespace := space } key descriptor
  obtain ⟨after, hafter⟩ : ∃ after, (signature space key descriptor).toList
      = (comment descriptor).toList ++ (['*', '/'] ++ after) := by
    rw [hrest]
    exact ⟨("\n  " ++ key ++ "(" ++ rest).toList, by simp⟩
  refine ⟨_, rest, hrender, hrest, ?closes, ?description, ?serverName⟩
  case closes =>
    rw [hafter, ← List.append_assoc, ← String.length_toList, Text.firstAt_append_iff (by decide),
      mark_infix_comment, not_or]
  case description =>
    intro hmark
    obtain ⟨desc, hdesc, hin⟩ := hmark
    obtain ⟨place, hplace⟩ := Text.exists_firstAt hin
    have hfirst := firstAt_comment_of_desc hdesc hplace (['*', '/'] ++ after)
    rw [hafter]
    exact ⟨desc, hdesc, place, hplace, hfirst, lt_length_comment (.inl ⟨desc, hdesc, hin⟩) hfirst⟩
  case serverName =>
    intro hnone hmark
    obtain ⟨apiName, hname, hin⟩ := hmark
    obtain ⟨place, hplace⟩ := Text.exists_firstAt hin
    have hfirst := firstAt_comment_of_apiName hnone hname hplace (['*', '/'] ++ after)
    rw [hafter]
    exact ⟨apiName, hname, place, hplace, hfirst,
      lt_length_comment (.inr ⟨apiName, hname, hin⟩) hfirst⟩

end Interface

end EndpointTypings
