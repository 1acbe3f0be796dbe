import EndpointTypings.Generate
import EndpointTypings.Proofs.Json.Compact
import Mathlib.Data.String.Basic

/-!
# The columns of a report

In the format `pretty` every value starts in the same column, whatever characters the names have.
The width of the column of names is the longest name in bytes, and names are padded to it in
characters; as a text has no more characters than bytes (`Text.length_le_utf8ByteSize`), padding
never falls short. `Report.columns_spec` says what comes out, member by member, in this format and
in `text`.

There is one exception: a column is at most `Report.widest` characters wide, and data with a longer
name is not shown at all, though nothing else depends on the width. The summary of a run has no
such names (`Generate.render?_report`).
-/

namespace EndpointTypings

/-- A text has no more characters than bytes. -/
theorem Text.length_le_utf8ByteSize (text : String) : text.length ≤ text.utf8ByteSize := by
  rw [← String.length_toList, ← String.ofList_toList (s := text), String.utf8ByteSize_ofList,
    String.toList_ofList]
  induction text.toList with
  | nil => exact Nat.le_refl 0
  | cons c cs ih =>
    have hpos := Char.utf8Size_pos c
    rw [List.length_cons, String.utf8Len_cons]
    omega

namespace Report

variable {value : Json} {member : String × Json} {width : Nat}

/-! ## Values -/

/-- A value as a report shows it, with the words for true and false. -/
inductive IsShown (yes no : String) : Json → String → Prop
  /-- True. -/
  | yes : IsShown yes no (.bool true) yes
  /-- False. -/
  | no : IsShown yes no (.bool false) no
  /-- A dash for null. -/
  | dash : IsShown yes no .null "-"
  /-- An integer in decimal digits. -/
  | int (n : Int) : IsShown yes no (.int n) (toString n)
  /-- A double by its shortest decimal. -/
  | double (x : Double) : IsShown yes no (.double x) (x.write Json.layout)
  /-- A string without quotes. -/
  | bare (text : String) : IsShown yes no (.str text) text
  /-- An array as JSON on one line. -/
  | arr {items : List Json} {text : String} (hc : Json.IsCompact text.toList (.arr items)) :
      IsShown yes no (.arr items) text
  /-- An object as JSON on one line. -/
  | obj {members : List (String × Json)} {text : String}
      (hc : Json.IsCompact text.toList (.obj members)) : IsShown yes no (.obj members) text

/-- What gives two words for true and false and the single text of every other value shows values
with these words. -/
theorem isShown_of_scalar {yes no : String} {shown : Json → String}
    (htrue : shown (.bool true) = yes) (hfalse : shown (.bool false) = no)
    (hrest : ∀ v, (∀ b, v ≠ .bool b) → shown v = scalar v) (value : Json) :
    IsShown yes no value (shown value) := by
  cases value with
  | null =>
    rw [hrest .null (by simp)]
    exact .dash
  | bool b =>
    cases b with
    | false =>
      rw [hfalse]
      exact .no
    | true =>
      rw [htrue]
      exact .yes
  | int n =>
    have htext : scalar (.int n) = toString n := String.ofList_toList
    rw [hrest (.int n) (by simp), htext]
    exact .int n
  | double x =>
    have htext : scalar (.double x) = x.write Json.layout := String.ofList_toList
    rw [hrest (.double x) (by simp), htext]
    exact .double x
  | str text =>
    rw [hrest (.str text) (by simp)]
    exact .bare text
  | arr items =>
    rw [hrest (.arr items) (by simp)]
    exact .arr (Json.isCompact_compact _)
  | obj members =>
    rw [hrest (.obj members) (by simp)]
    exact .obj (Json.isCompact_compact _)

/-- A value as a single text has the words of JSON for true and false. -/
theorem isShown_scalar (value : Json) : IsShown "true" "false" value (scalar value) :=
  isShown_of_scalar rfl rfl (fun _ _ => rfl) value

/-- Without colors a text is padded and nothing else. -/
theorem paint_false (style : Style) (width : Nat) (text : String) :
    paint false style width text = pad width text.toList := by
  rw [paint, Bool.false_and, if_neg Bool.false_ne_true]

/-- Nothing is padded to no width. -/
theorem pad_zero (cs : List Char) : pad 0 cs = cs := by
  rw [pad, Nat.zero_sub, List.replicate_zero, List.append_nil]

/-- Without colors only true and false differ in the column of values from the single text. -/
theorem prettyValue_false (hb : ∀ b, value ≠ .bool b) :
    prettyValue false value = (scalar value).toList := by
  cases value with
  | bool b => exact absurd rfl (hb b)
  | int n =>
    rw [prettyValue, paint_false, pad_zero]
    rfl
  | double x =>
    rw [prettyValue, paint_false, pad_zero]
    rfl
  | null => rfl
  | str text => rfl
  | arr items => rfl
  | obj members => rfl

/-- A value in its column has words of its own for true and false. -/
theorem isShown_prettyValue (value : Json) :
    IsShown "yes" "no" value (String.ofList (prettyValue false value)) := by
  have hrest : ∀ v, (∀ b, v ≠ .bool b) → String.ofList (prettyValue false v) = scalar v := by
    intro v hb
    rw [prettyValue_false hb, String.ofList_toList]
  exact isShown_of_scalar rfl rfl hrest value

/-! ## Columns -/

/-- The length in bytes of the longest name; zero if there are no names. -/
structure IsWidth (members : List (String × Json)) (width : Nat) : Prop where
  /-- No name is longer. -/
  le : ∀ member ∈ members, member.1.utf8ByteSize ≤ width
  /-- A name is as long, unless the width is zero. -/
  attained : width = 0 ∨ ∃ member ∈ members, member.1.utf8ByteSize = width

/-- The width of the column of names is the greatest of their lengths. -/
theorem nameWidth_eq_max? (members : List (String × Json)) :
    nameWidth members = (members.map fun member => member.1.utf8ByteSize).max?.getD 0 := by
  have hfold : nameWidth members
      = (members.map fun member => member.1.utf8ByteSize).foldl max 0 := by
    rw [nameWidth, List.foldl_map]
  rw [hfold, List.foldl_max, Nat.zero_max]

/-- The width of the column of names is the length of the longest name. -/
theorem isWidth_nameWidth (members : List (String × Json)) :
    IsWidth members (nameWidth members) := by
  rw [nameWidth_eq_max?]
  cases hmax : (members.map fun member => member.1.utf8ByteSize).max? with
  | none =>
    obtain rfl : members = [] := by simpa using hmax
    exact ⟨nofun, .inl rfl⟩
  | some width =>
    obtain ⟨hmem, hle⟩ := List.max?_eq_some_iff.1 hmax
    exact ⟨fun member hmember => hle _ (List.mem_map_of_mem hmember),
      .inr (List.mem_map.1 hmem)⟩

/-- A member in the format `pretty`: its name, spaces, and its value, which starts two characters
behind the column of names. -/
inductive IsEntry (width : Nat) : String × Json → String → Prop
  /-- There are at least two spaces. -/
  | mk {name : String} {value : Json} {gap text : String} (hgap : ∀ c ∈ gap.toList, c = ' ')
      (htwo : 2 ≤ gap.length) (hcolumn : (name ++ gap).length = width + 2)
      (hshown : IsShown "yes" "no" value text) : IsEntry width (name, value) (name ++ gap ++ text)

/-- A member in the format `text`: its name, an equals sign and its value. -/
inductive IsLine : String × Json → String → Prop
  /-- There are no spaces. -/
  | mk {name : String} {value : Json} {text : String} (hshown : IsShown "true" "false" value text) :
      IsLine (name, value) (name ++ "=" ++ text)

/-- Without colors there are only spaces between a name and its value. -/
theorem prettyLine_false (width : Nat) (name : String) (value : Json) :
    prettyLine false width (name, value)
      = name ++ String.ofList (List.replicate (width - name.length + 2) ' ')
        ++ String.ofList (prettyValue false value) := by
  rw [String.ext_iff, prettyLine, paint_false, pad, String.toList_append, String.toList_append,
    String.toList_ofList, String.toList_ofList, String.toList_ofList, List.replicate_add,
    String.length_toList]
  simp only [List.append_assoc]
  rfl

/-- A member whose name is no longer than the width has its value in the column. -/
theorem isEntry_prettyLine (h : member.1.utf8ByteSize ≤ width) :
    IsEntry width member (prettyLine false width member) := by
  obtain ⟨name, value⟩ := member
  -- the width is in bytes, but the padding goes by characters
  have hlength : name.length ≤ width := (Text.length_le_utf8ByteSize name).trans h
  rw [prettyLine_false]
  refine .mk ?_ ?_ ?_ (isShown_prettyValue value)
  · intro c hc
    rw [String.toList_ofList] at hc
    exact List.eq_of_mem_replicate hc
  · rw [String.length_ofList, List.length_replicate]
    omega
  · rw [String.length_append, String.length_ofList, List.length_replicate]
    omega

/-- A member in the format `text` has its value as a single text. -/
theorem isLine_textLine (member : String × Json) : IsLine member (textLine member) :=
  .mk (isShown_scalar member.2)

/-- An object is shown in the format `pretty` if its names are not too long. -/
theorem render?_pretty (colored : Bool) (members : List (String × Json)) :
    render? .pretty colored (.obj members) = if nameWidth members ≤ widest then
      some (String.intercalate "\n" (members.map (prettyLine colored (nameWidth members))))
    else none := by
  have hfits : fits .pretty (.obj members) = true ↔ nameWidth members ≤ widest :=
    decide_eq_true_iff
  by_cases h : nameWidth members ≤ widest
  · rw [render?, if_pos (hfits.2 h), if_pos h]
    rfl
  · rw [render?, if_neg (mt hfits.1 h), if_neg h]

/-- In the format `pretty` an object has an entry for each member, in order, with a line feed
between each two; every value starts two characters behind the length in bytes of the longest name,
and at least two spaces stand before it. If that length is more than a column can have, nothing is
shown. In the format `text` it has a line for each member, in the same order. -/
theorem columns_spec (members : List (String × Json)) :
    ∃ width entries lines, IsWidth members width ∧
      List.Forall₂ (IsEntry width) members entries ∧ List.Forall₂ IsLine members lines ∧
      render? .pretty false (.obj members)
        = (if width ≤ widest then some (String.intercalate "\n" entries) else none) ∧
      ∀ colored, render? .text colored (.obj members) = some (String.intercalate "\n" lines) := by
  have hwidth := isWidth_nameWidth members
  refine ⟨nameWidth members, members.map (prettyLine false (nameWidth members)),
    members.map textLine, hwidth, ?_, ?_, ?_, fun colored => rfl⟩
  · rw [List.forall₂_map_right_iff, List.forall₂_same]
    exact fun member hmember => isEntry_prettyLine (hwidth.le member hmember)
  · rw [List.forall₂_map_right_iff, List.forall₂_same]
    exact fun member _ => isLine_textLine member
  · exact render?_pretty false members

example : render? .pretty false (.obj [("é", .bool true), ("né", .arr [.str "a", .null]),
    ("abcd", .str "x y"), ("", .null)])
    = some "é     yes\nné    [\"a\",null]\nabcd  x y\n      -" := by
  decide +kernel

/-- A single name of `2 ^ 16` characters is too long to be shown. -/
theorem no_report_of_long_name :
    render? .pretty false (.obj [(String.ofList (List.replicate 65536 'a'), .null)]) = none := by
  have hlength := Text.length_le_utf8ByteSize (String.ofList (List.replicate 65536 'a'))
  rw [String.length_ofList, List.length_replicate] at hlength
  have hwidth := (isWidth_nameWidth [(String.ofList (List.replicate 65536 'a'), Json.null)]).le _
    (List.mem_singleton_self _)
  have hwide : ¬ nameWidth [(String.ofList (List.replicate 65536 'a'), Json.null)] ≤ widest :=
    Nat.not_le.2 (Nat.lt_of_lt_of_le (Nat.lt_succ_self widest) (hlength.trans hwidth))
  rw [render?_pretty, if_neg hwide]

end Report

namespace Generate

open Report

/-- The names in a summary are short, so that it is shown in every format. -/
theorem render?_report (format : OutputFormat) (colored : Bool) (draft : Draft) (action : Action) :
    render? format colored (report draft action)
      = some (render format colored (report draft action)) := by
  have hfits : fits format (report draft action) = true := by
    cases format <;> cases action <;> rfl
  rw [render?, if_pos hfits]

end Generate

end EndpointTypings
