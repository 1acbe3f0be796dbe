import EndpointTypings.Proofs.Entries
import EndpointTypings.Registry
import Mathlib.Data.Finset.Card

/-!
# Registries and the insertions that made them

A registry is made by inserting descriptors under keys, any number of times under each. What it is
in the end can be said of the insertions alone: its keys are those that were inserted, in the order
of their first insertions, and under each stands what was inserted last. `Registry.Records` says so
of a registry after some insertions; one more insertion keeps it (`Registry.Records.insert`), be the
key new or not, so that it holds after all of them (`Registry.records_ofList`). Keys that stand in
the order of their first insertions are distinct, and there is only one way to put them in it, so a
registry is determined by what it records.
-/

namespace EndpointTypings.Registry

/-- A descriptor is the last that was inserted under a key. -/
def LastInserted (calls : List (String × Descriptor)) (key : String) (descriptor : Descriptor) :
    Prop :=
  ∃ earlier later, calls = earlier ++ (key, descriptor) :: later ∧ key ∉ Entries.names later

/-- A registry is what insertions leave. -/
structure Records (calls : List (String × Descriptor)) (registry : Registry) : Prop where
  /-- The keys are those that were inserted. -/
  mem_keys_iff : ∀ key, key ∈ registry.keys ↔ key ∈ Entries.names calls
  /-- They stand in the order of their first insertions. -/
  keys_ordered : registry.keys.Pairwise fun key next =>
    (Entries.names calls).idxOf key < (Entries.names calls).idxOf next
  /-- Under a key stands what was inserted last. -/
  get?_eq_some_iff : ∀ key descriptor,
    registry.get? key = some descriptor ↔ LastInserted calls key descriptor

variable {calls others : List (String × Descriptor)} {registry other : Registry} {key : String}
  {descriptor : Descriptor}

/-! ## One more insertion -/

/-- The keys of insertions with one more. -/
theorem names_concat (calls : List (String × Descriptor)) (key : String)
    (descriptor : Descriptor) :
    Entries.names (calls ++ [(key, descriptor)]) = Entries.names calls ++ [key] :=
  List.map_append

/-- The last insertion is the last one under its key. -/
theorem lastInserted_concat_self {last : Descriptor} :
    LastInserted (calls ++ [(key, descriptor)]) key last ↔ last = descriptor := by
  constructor
  · rintro ⟨earlier, later, heq, hlater⟩
    rcases List.eq_nil_or_concat later with rfl | ⟨before, final, rfl⟩
    · exact congrArg Prod.snd (List.append_inj_right' heq rfl |> List.singleton_injective).symm
    · -- the last insertion would be a later one under the key
      rw [List.concat_eq_append, ← List.cons_append, ← List.append_assoc] at heq
      obtain rfl : (key, descriptor) = final :=
        List.singleton_injective (List.append_inj_right' heq rfl)
      refine absurd ?_ hlater
      rw [List.concat_eq_append, names_concat]
      exact List.mem_append_right _ List.mem_cons_self
  · rintro rfl
    exact ⟨calls, [], rfl, List.not_mem_nil⟩

/-- An insertion does not matter to another key. -/
theorem lastInserted_concat_of_ne {name : String} {last : Descriptor} (hne : name ≠ key) :
    LastInserted (calls ++ [(key, descriptor)]) name last ↔ LastInserted calls name last := by
  constructor
  · rintro ⟨earlier, later, heq, hlater⟩
    rcases List.eq_nil_or_concat later with rfl | ⟨before, final, rfl⟩
    · have hlast := List.singleton_injective (List.append_inj_right' heq rfl)
      exact absurd (congrArg Prod.fst hlast).symm hne
    · rw [List.concat_eq_append, ← List.cons_append, ← List.append_assoc] at heq
      obtain ⟨rfl, -⟩ := List.append_inj' heq rfl
      refine ⟨earlier, before, rfl, fun hbefore => hlater ?_⟩
      rw [List.concat_eq_append, Entries.names, List.map_append]
      exact List.mem_append_left _ hbefore
  · rintro ⟨earlier, later, rfl, hlater⟩
    refine ⟨earlier, later ++ [(key, descriptor)], by simp, ?_⟩
    rw [names_concat, List.mem_append, List.mem_singleton]
    exact not_or.2 ⟨hlater, hne⟩

/-- One more insertion is recorded. -/
theorem Records.insert (h : Records calls registry) (key : String) (descriptor : Descriptor) :
    Records (calls ++ [(key, descriptor)]) (registry.insert key descriptor) where
  mem_keys_iff name := by
    rw [keys_insert, names_concat, List.mem_append, List.mem_singleton, ← h.mem_keys_iff]
    split_ifs with hkey
    · exact (or_iff_left_of_imp fun heq => heq ▸ hkey).symm
    · rw [List.mem_append, List.mem_singleton]
  keys_ordered := by
    rw [keys_insert, names_concat]
    -- the keys that were there have their first insertions where they had them
    have hold : ∀ name ∈ registry.keys,
        (Entries.names calls ++ [key]).idxOf name = (Entries.names calls).idxOf name :=
      fun name hname => List.idxOf_append_of_mem ((h.mem_keys_iff name).1 hname)
    have hkept : registry.keys.Pairwise fun name next =>
        (Entries.names calls ++ [key]).idxOf name < (Entries.names calls ++ [key]).idxOf next :=
      h.keys_ordered.imp_of_mem fun hname hnext hlt => by rwa [hold _ hname, hold _ hnext]
    split_ifs with hkey
    · exact hkept
    · refine List.pairwise_append.2 ⟨hkept, List.pairwise_singleton _ _, ?_⟩
      intro name hname last hlast
      obtain rfl := List.mem_singleton.1 hlast
      have hnew : last ∉ Entries.names calls := fun hmem => hkey ((h.mem_keys_iff last).2 hmem)
      have hname' : name ∈ Entries.names calls := (h.mem_keys_iff name).1 hname
      rw [hold name hname, List.idxOf_append_of_notMem hnew]
      exact Nat.lt_add_right _ (List.idxOf_lt_length_of_mem hname')
  get?_eq_some_iff name last := by
    by_cases hname : name = key
    · subst hname
      rw [get?_insert_self, lastInserted_concat_self, Option.some.injEq, eq_comm]
    · rw [get?_insert_of_ne hname, lastInserted_concat_of_ne hname, h.get?_eq_some_iff]

/-! ## All insertions -/

/-- Nothing is recorded before the first insertion. -/
theorem records_empty : Records [] empty where
  mem_keys_iff _ := Iff.rfl
  keys_ordered := .nil
  get?_eq_some_iff key descriptor := by
    refine ⟨nofun, ?_⟩
    rintro ⟨earlier, later, heq, -⟩
    simp at heq

/-- Insertions one after the other are recorded. -/
theorem records_ofList (calls : List (String × Descriptor)) : Records calls (ofList calls) := by
  induction calls using List.reverseRecOn with
  | nil => exact records_empty
  | append_singleton calls call ih =>
    have hlast : ofList (calls ++ [call]) = (ofList calls).insert call.1 call.2 := by
      rw [ofList, List.foldl_append]
      rfl
    rw [hlast]
    exact ih.insert call.1 call.2

/-! ## What is recorded -/

/-- Keys in the order of their first insertions are distinct. -/
theorem Records.nodup_keys (h : Records calls registry) : registry.keys.Nodup :=
  h.keys_ordered.imp fun hlt heq => absurd (heq ▸ hlt) (Nat.lt_irrefl _)

/-- There are as many endpoints as different keys were inserted. -/
theorem Records.size_eq (h : Records calls registry) :
    registry.size = (Entries.names calls).toFinset.card := by
  have hkeys : registry.keys.toFinset = (Entries.names calls).toFinset := by
    ext key
    rw [List.mem_toFinset, List.mem_toFinset, h.mem_keys_iff]
  calc registry.size = registry.keys.length := (List.length_map _).symm
    _ = registry.keys.toFinset.card := (List.toFinset_card_of_nodup h.nodup_keys).symm
    _ = (Entries.names calls).toFinset.card := by rw [hkeys]

/-- A key that was never inserted is the only kind that is not found. -/
theorem Records.get?_eq_none_iff (h : Records calls registry) (key : String) :
    registry.get? key = none ↔ key ∉ Entries.names calls := by
  rw [← h.mem_keys_iff]
  exact Entries.get?_eq_none_iff

/-- The endpoints are the last insertions. -/
theorem Records.mem_toList_iff (h : Records calls registry) (key : String)
    (descriptor : Descriptor) :
    (key, descriptor) ∈ registry.toList ↔ LastInserted calls key descriptor := by
  rw [← h.get?_eq_some_iff]
  exact ⟨Entries.get?_of_mem registry.distinct, Entries.mem_of_get?⟩

/-- No endpoint stands twice. -/
theorem nodup_toList (registry : Registry) : registry.toList.Nodup :=
  List.Nodup.of_map _ registry.distinct

/-- The keys after insertions are those that were inserted, without repetitions. -/
theorem keys_ofList (calls : List (String × Descriptor)) :
    (ofList calls).keys = (Entries.names calls).eraseDups := by
  have hkeys : (ofList calls).keys = Entries.names (ofList calls).toList := rfl
  rw [hkeys, toList_ofList, Entries.names_merge]

/-- Insertions make the same registry exactly if they have the same keys in the order of their first
insertions and the same last descriptor under each. -/
theorem ofList_eq_ofList_iff : ofList others = ofList calls ↔
    (Entries.names others).eraseDups = (Entries.names calls).eraseDups ∧
      ∀ key descriptor, LastInserted others key descriptor ↔ LastInserted calls key descriptor := by
  have hothers := records_ofList others
  have hcalls := records_ofList calls
  constructor
  · intro heq
    refine ⟨by rw [← keys_ofList, heq, keys_ofList], fun key descriptor => ?_⟩
    rw [← hothers.get?_eq_some_iff, heq, hcalls.get?_eq_some_iff]
  · rintro ⟨hkeys, hlast⟩
    refine ext (Entries.ext_get? (ofList others).distinct ?_ fun key => Option.ext fun last => ?_)
    · exact (keys_ofList others).trans (hkeys.trans (keys_ofList calls).symm)
    · exact (hothers.get?_eq_some_iff key last).trans
        ((hlast key last).trans (hcalls.get?_eq_some_iff key last).symm)

/-- Any insertions, one after the other from the empty registry, make a registry whose keys are
distinct and stand in the order of their first insertions; it has as many endpoints as different
keys were inserted; under a key stands the descriptor that was inserted last, and nothing if none
was; and these pairs, each once, are its endpoints. Insertions with the same order of first
occurrences and the same last descriptors make the same registry, and no others do. -/
theorem ofList_spec (calls : List (String × Descriptor)) :
    calls.foldl (fun registry call => registry.insert call.1 call.2) empty = ofList calls ∧
    ((ofList calls).keys.Nodup ∧
      (ofList calls).keys = (Entries.names calls).eraseDups ∧
      (∀ key, key ∈ (ofList calls).keys ↔ key ∈ Entries.names calls) ∧
      (ofList calls).keys.Pairwise fun key next =>
        (Entries.names calls).idxOf key < (Entries.names calls).idxOf next) ∧
    ((ofList calls).size = (Entries.names calls).toFinset.card ∧
      ((ofList calls).isEmpty = true ↔ calls = [])) ∧
    ((∀ key descriptor,
        (ofList calls).get? key = some descriptor ↔ LastInserted calls key descriptor) ∧
      ∀ key, (ofList calls).get? key = none ↔ key ∉ Entries.names calls) ∧
    ((ofList calls).toList.Nodup ∧ Entries.names (ofList calls).toList = (ofList calls).keys ∧
      ∀ key descriptor,
        (key, descriptor) ∈ (ofList calls).toList ↔ LastInserted calls key descriptor) ∧
    ∀ others, ofList others = ofList calls ↔
      (Entries.names others).eraseDups = (Entries.names calls).eraseDups ∧
        ∀ key descriptor, LastInserted others key descriptor ↔
          LastInserted calls key descriptor := by
  have h := records_ofList calls
  refine ⟨rfl, ⟨h.nodup_keys, keys_ofList calls, h.mem_keys_iff, h.keys_ordered⟩,
    ⟨h.size_eq, ?_⟩, ⟨h.get?_eq_some_iff, h.get?_eq_none_iff⟩,
    ⟨nodup_toList _, rfl, h.mem_toList_iff⟩, fun others => ofList_eq_ofList_iff⟩
  have hempty : (ofList calls).isEmpty = true ↔ (ofList calls).size = 0 := by
    rw [isEmpty, List.isEmpty_iff, size, List.length_eq_zero_iff]
  rw [hempty, h.size_eq, Finset.card_eq_zero, List.toFinset_eq_empty_iff, Entries.names,
    List.map_eq_nil_iff]

example : (ofList
    [("b", .empty), ("a", .empty), ("b", { Descriptor.empty with res := "T" })]).toList
      = [("b", { Descriptor.empty with res := "T" }), ("a", .empty)] := by
  decide +kernel

end EndpointTypings.Registry
