import EndpointTypings.Proofs.Entries
import EndpointTypings.Proofs.Interface.Header

/-!
# Edits of the generated file

What an edit of one endpoint does to the generated file. `Interface.render_insert` says that the
file can be cut around the method of an endpoint: what stands before it depends on the endpoints
before it only, and what stands behind it on those behind it. So a descriptor that is inserted
changes the bytes of its own method, or adds a method at the end, and after any number of insertions
every other method still stands, with the same bytes, between those that it stood between.

The endpoints are entries, so the first half says what insertions do to entries
(`Entries.putAll_eq_append`): they change in place, and the new ones follow. It goes by induction
over the insertions, the last one first.
-/

namespace EndpointTypings

/-! ## Edits of entries -/

namespace Entries

variable {α : Type} {name : String} {value : α} {entries front back edits : List (String × α)}

/-- An entry after a sequence of edits: it has the value of the last edit of its name, and its own
if there is none. -/
def edited (edits : List (String × α)) (entry : String × α) : String × α :=
  (entry.1, (get? entry.1 edits.reverse).getD entry.2)

/-- The entries that a sequence of edits adds: those with a new name, in order of its first edit,
with the value of its last. -/
def added (entries edits : List (String × α)) : List (String × α) :=
  (merge edits).filter fun edit => edit.1 ∉ names entries

/-- An edit leaves the name of an entry alone. -/
@[simp] theorem names_map_edited (edits entries : List (String × α)) :
    names (entries.map (edited edits)) = names entries := by
  simp [names, edited]

/-- An entry whose name is not edited stays as it is. -/
theorem edited_eq_self {entry : String × α} (h : entry.1 ∉ names edits) :
    edited edits entry = entry := by
  have hnone : get? entry.1 edits.reverse = none := by
    rw [get?_eq_none_iff]
    simpa [names] using h
  rw [edited, hnone, Option.getD_none]

/-- One more edit counts for the entry of its name. -/
theorem edited_concat (edits : List (String × α)) (edit entry : String × α) :
    edited (edits ++ [edit]) entry
      = if edit.1 = entry.1 then (entry.1, edit.2) else edited edits entry := by
  unfold edited
  rw [List.reverse_concat, get?]
  split_ifs <;> rfl

/-- One more edit adds an entry, or changes one that was added, if its name is new. -/
theorem added_concat (entries edits : List (String × α)) (edit : String × α) :
    added entries (edits ++ [edit])
      = if edit.1 ∈ names entries then added entries edits
        else put edit.1 edit.2 (added entries edits) := by
  have hfilter := filter_put (fun name => name ∉ names entries) edit.1 edit.2 (merge edits)
  rw [added, merge_concat, hfilter]
  by_cases hold : edit.1 ∈ names entries
  · simp [hold, added]
  · simp [hold, added]

/-- One more edit leaves the entries alone that have another name. -/
theorem map_edited_concat {edit : String × α} (h : edit.1 ∉ names entries) :
    entries.map (edited (edits ++ [edit])) = entries.map (edited edits) := by
  refine List.map_congr_left fun entry hentry => ?_
  have hne : edit.1 ≠ entry.1 := fun heq => h (heq ▸ List.mem_map_of_mem hentry)
  rw [edited_concat, if_neg hne]

/-- Edits change entries in place and add the new ones behind them. -/
theorem putAll_eq_append (h : (names entries).Nodup) (edits : List (String × α)) :
    putAll entries edits = entries.map (edited edits) ++ added entries edits := by
  -- the induction takes off the last edit, which is put into the result of the others
  induction edits using List.reverseRecOn with
  | nil =>
    have hmap : entries.map (edited []) = entries :=
      (List.map_congr_left fun entry _ => edited_eq_self List.not_mem_nil).trans (List.map_id' _)
    rw [hmap]
    simp [putAll, added, merge]
  | append_singleton edits edit ih =>
    have hlast : putAll entries (edits ++ [edit]) = put edit.1 edit.2 (putAll entries edits) := by
      simp [putAll]
    rw [hlast, ih, added_concat]
    split_ifs with hold
    · -- the edit replaces the entry of its name, which is the only one
      obtain ⟨entry, hentry, hname⟩ := List.mem_map.1 hold
      obtain ⟨front, back, rfl⟩ := List.append_of_mem hentry
      obtain ⟨hfront, hback⟩ := not_mem_names_of_nodup h
      rw [hname] at hfront hback
      have hchanged : edited (edits ++ [edit]) entry = edit := by
        rw [edited_concat, if_pos hname.symm, hname]
      rw [List.map_append, List.map_cons, List.append_assoc, List.cons_append, edited, hname,
        put_append_cons (by rwa [names_map_edited]), List.map_append, List.map_cons, hchanged,
        map_edited_concat hfront, map_edited_concat hback, List.append_assoc, List.cons_append]
    · rw [map_edited_concat hold, put_append]
      rwa [names_map_edited]

end Entries

/-! ## Edits of registries -/

namespace Registry

variable {registry : Registry} {key : String} {old : Descriptor}
  {front back edits : List (String × Descriptor)}

/-- A descriptor that is inserted under a key that is present takes the place of the old one. -/
theorem toList_insert_of_split (h : registry.toList = front ++ (key, old) :: back)
    (descriptor : Descriptor) :
    (registry.insert key descriptor).toList = front ++ (key, descriptor) :: back := by
  have hdistinct : (Entries.names (front ++ (key, old) :: back)).Nodup := h ▸ registry.distinct
  have hfront := (Entries.not_mem_names_of_nodup hdistinct).1
  calc (registry.insert key descriptor).toList
      = Entries.put key descriptor registry.toList := rfl
    _ = front ++ (key, descriptor) :: back := by rw [h, Entries.put_append_cons hfront]

/-- A descriptor that is inserted under a new key stands at the end. -/
theorem toList_insert_of_get?_eq_none (h : registry.get? key = none) (descriptor : Descriptor) :
    (registry.insert key descriptor).toList = registry.toList ++ [(key, descriptor)] :=
  Entries.put_of_not_mem (Entries.get?_eq_none_iff.1 h)

/-- Endpoints that are inserted in turn change those that are there, and the new ones follow. -/
theorem toList_foldl_insert_eq_append (registry : Registry) (edits : List (String × Descriptor)) :
    (edits.foldl (fun registry edit => registry.insert edit.1 edit.2) registry).toList
      = registry.toList.map (Entries.edited edits) ++ Entries.added registry.toList edits := by
  rw [toList_foldl_insert]
  exact Entries.putAll_eq_append registry.distinct edits

end Registry

/-! ## Edits of the file -/

namespace Interface

/-- The file up to a method: it depends on the endpoints before that of the method only. -/
def textBefore (config : Config) (front : List (String × Descriptor)) : String :=
  opening config ++ String.join (front.map (block config)) ++ "\n"

/-- The file behind a method: it depends on the endpoints behind that of the method only. -/
def textBehind (config : Config) (back : List (String × Descriptor)) : String :=
  "\n" ++ String.join (back.map (block config)) ++ "\n\x7d"

variable {registry : Registry} {front back : List (String × Descriptor)}
  {endpoint : String × Descriptor}

/-- The file is cut around the method of an endpoint. -/
theorem render_of_split (config : Config) (h : registry.toList = front ++ endpoint :: back) :
    render config registry = .ok (textBefore config front
      ++ signature config.ambientNamespace endpoint.1 endpoint.2 ++ textBehind config back) := by
  rw [render_eq_blocks, h, List.map_append, List.map_cons, String.join_append, String.join_cons,
    block, textBefore, textBehind]
  simp only [String.append_assoc]

/-- The file can be cut around the method of each endpoint. A descriptor that is inserted under a
new key adds its method at the end; under a key that is present it replaces the bytes of the old
method, between a text that depends on the endpoints before it only and one that depends on those
behind it only. After any sequence of insertions, a method whose key is not among them stands with
the same bytes between what has become of the endpoints on both sides, each of them in its place. -/
theorem render_insert (config : Config) (registry : Registry) (key : String)
    (descriptor : Descriptor) :
    (∃ text, renderMethod config key descriptor = .ok text ∧
      match registry.get? key with
      | none => ∃ rest, render config registry = .ok (rest ++ "\n\x7d") ∧
          render config (registry.insert key descriptor)
            = .ok (rest ++ "\n" ++ text ++ "\n" ++ "\n\x7d")
      | some old => ∃ front back oldText, registry.toList = front ++ (key, old) :: back ∧
          renderMethod config key old = .ok oldText ∧
          render config registry
            = .ok (textBefore config front ++ oldText ++ textBehind config back) ∧
          render config (registry.insert key descriptor)
            = .ok (textBefore config front ++ text ++ textBehind config back)) ∧
    ∀ edits front endpoint back, registry.toList = front ++ endpoint :: back →
      endpoint.1 ∉ Entries.names edits →
      ∃ text, renderMethod config endpoint.1 endpoint.2 = .ok text ∧
        render config registry = .ok (textBefore config front ++ text ++ textBehind config back) ∧
        render config (edits.foldl (fun registry edit => registry.insert edit.1 edit.2) registry)
          = .ok (textBefore config (front.map (Entries.edited edits)) ++ text
            ++ textBehind config (back.map (Entries.edited edits)
              ++ Entries.added registry.toList edits)) := by
  refine ⟨⟨_, renderMethod_eq config key descriptor, ?_⟩, ?_⟩
  · cases hget : registry.get? key with
    | none =>
      refine ⟨_, render_eq_blocks config registry, ?_⟩
      rw [render_eq_blocks, Registry.toList_insert_of_get?_eq_none hget, List.map_append,
        String.join_append, List.map_singleton, String.join_cons, String.join_nil, block]
      simp only [String.append_assoc, String.append_empty]
    | some old =>
      have hmem : (key, old) ∈ registry.toList := Entries.mem_of_get? hget
      obtain ⟨front, back, hsplit⟩ := List.append_of_mem hmem
      have hinsert := Registry.toList_insert_of_split hsplit descriptor
      have hold := render_of_split config hsplit
      have hnew := render_of_split config hinsert
      exact ⟨front, back, _, hsplit, renderMethod_eq config key old, hold, hnew⟩
  · intro edits front endpoint back hsplit hkey
    refine ⟨_, renderMethod_eq config endpoint.1 endpoint.2, render_of_split config hsplit, ?_⟩
    refine render_of_split config ?_
    rw [Registry.toList_foldl_insert_eq_append]
    nth_rewrite 1 [hsplit]
    rw [List.map_append, List.map_cons, Entries.edited_eq_self hkey, List.append_assoc,
      List.cons_append]

end Interface

end EndpointTypings
