import EndpointTypings.Proofs.Json.Written

/-!
# What is written on one line

`IsCompact` says what the text of a value on one line is: the parts of arrays and objects with
commas between them, names and values with a colon between them, and nothing else.
`isCompact_compact` says that this is what the writer makes of every value, doubles, repeated names
and any depth included. Whether such a text can be read back is another matter, see
`Json.Plain.isVerbatimDocument`.
-/

namespace EndpointTypings.Json

/-- What holds of the values without parts, and of arrays and objects if it holds of the values in
them, holds of every value. -/
theorem induction {motive : Json → Prop} (null : motive .null)
    (bool : ∀ b, motive (.bool b)) (int : ∀ n, motive (.int n))
    (double : ∀ x, motive (.double x)) (str : ∀ text, motive (.str text))
    (arr : ∀ items, (∀ item ∈ items, motive item) → motive (.arr items))
    (obj : ∀ members, (∀ member ∈ members, motive member.2) → motive (.obj members))
    (v : Json) : motive v :=
  @Json.rec motive (fun items => ∀ item ∈ items, motive item)
    (fun members => ∀ member ∈ members, motive member.2) (fun member => motive member.2)
    null bool int double str arr obj
    nofun (fun _ _ hitem hitems => List.forall_mem_cons.2 ⟨hitem, hitems⟩)
    nofun (fun _ _ hmember hmembers => List.forall_mem_cons.2 ⟨hmember, hmembers⟩)
    (fun _ _ hvalue => hvalue) v

/-- A text of a value with nothing between its parts but brackets, commas and colons. -/
inductive IsCompact : List Char → Json → Prop
  /-- The null value. -/
  | null : IsCompact ['n', 'u', 'l', 'l'] .null
  /-- The truth value true. -/
  | true : IsCompact ['t', 'r', 'u', 'e'] (.bool true)
  /-- The truth value false. -/
  | false : IsCompact ['f', 'a', 'l', 's', 'e'] (.bool false)
  /-- An integer in decimal digits. -/
  | int (n : Int) : IsCompact (toString n).toList (.int n)
  /-- A double by its shortest decimal. -/
  | double (x : Double) : IsCompact (x.write layout).toList (.double x)
  /-- A string in its quotes. -/
  | str {s : List Char} {text : String} (hs : IsString s text) : IsCompact s (.str text)
  /-- The items of an array with commas between them. -/
  | arr {texts : List (List Char)} {items : List Json} (hi : List.Forall₂ IsCompact texts items) :
      IsCompact ('[' :: ([','].intercalate texts ++ [']'])) (.arr items)
  /-- The members of an object with commas between them, each with a colon behind its name. -/
  | obj {names texts : List (List Char)} {members : List (String × Json)}
      (hn : List.Forall₂ IsString names (Entries.names members))
      (hv : List.Forall₂ IsCompact texts (members.map (·.2))) :
      IsCompact ('\x7b' :: ([','].intercalate
        (names.zipWith (fun name text => name ++ ':' :: text) texts) ++ ['\x7d'])) (.obj members)

/-- Items are written one by one, with commas between them. -/
theorem compactItems_eq_intercalate (items : List Json) :
    compactItems items = [','].intercalate (items.map compactChars) := by
  induction items with
  | nil => rfl
  | cons item items ih =>
    cases items with
    | nil => simp [compactItems]
    | cons next rest =>
      rw [compactItems, ih, List.map_cons, List.map_cons, List.map_cons,
        List.intercalate_cons_cons, List.append_assoc, List.singleton_append]

/-- Members are written one by one, with commas between them. -/
theorem compactMembers_eq_intercalate (members : List (String × Json)) :
    compactMembers members = [','].intercalate
      (members.map fun member => quoted member.1 ++ ':' :: compactChars member.2) := by
  induction members with
  | nil => rfl
  | cons member members ih =>
    cases members with
    | nil => simp [compactMembers]
    | cons next rest =>
      rw [compactMembers, ih, List.map_cons, List.map_cons, List.map_cons,
        List.intercalate_cons_cons]
      simp only [List.append_assoc, List.cons_append, List.nil_append]

/-- Every value is written so on one line. -/
theorem isCompact_compactChars (v : Json) : IsCompact (compactChars v) v := by
  induction v using Json.induction with
  | null => exact .null
  | bool b =>
    cases b with
    | false => exact .false
    | true => exact .true
  | int n => exact .int n
  | double x => exact .double x
  | str text => exact .str (isString_quoted text)
  | arr items ih =>
    rw [compactChars, compactItems_eq_intercalate]
    exact .arr (List.forall₂_map_left_iff.2 (List.forall₂_same.2 ih))
  | obj members ih =>
    -- what is written for the names and what is written for the values, member by member
    have hzip : (members.map fun member => quoted member.1 ++ ':' :: compactChars member.2)
        = (members.map fun member => quoted member.1).zipWith (fun name text => name ++ ':' :: text)
          (members.map fun member => compactChars member.2) := by
      rw [List.zipWith_map, List.zipWith_self]
    rw [compactChars, compactMembers_eq_intercalate, hzip]
    refine .obj ?_ ?_
    · rw [Entries.names, List.forall₂_map_left_iff, List.forall₂_map_right_iff,
        List.forall₂_same]
      exact fun member _ => isString_quoted member.1
    · rw [List.forall₂_map_left_iff, List.forall₂_map_right_iff, List.forall₂_same]
      exact ih

/-- Every value has a text on one line. -/
theorem isCompact_compact (v : Json) : IsCompact v.compact.toList v := by
  rw [compact, String.toList_ofList]
  exact isCompact_compactChars v

end EndpointTypings.Json
