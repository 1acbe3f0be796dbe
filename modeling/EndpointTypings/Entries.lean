/-!
# Keyed entries in order of arrival

The members of an object, the endpoints of a registry and the entries of a folder are all the
same thing: a list of pairs in which a name stands at most once. `put` gives a name a value: a
name that is present keeps its place and loses its old value, a new one goes to the end. `merge`
puts a whole sequence, so that a repeated name ends up at the place of its first occurrence with
the value of its last.
-/

namespace EndpointTypings.Entries

/-- The value of the first entry with a given name. -/
def get? {α : Type} (name : String) : List (String × α) → Option α
  | [] => none
  | entry :: rest => if entry.1 = name then some entry.2 else get? name rest

/-- The entries after a name is given a value: in place if the name is present, else at the end. -/
def put {α : Type} (name : String) (value : α) : List (String × α) → List (String × α)
  | [] => [(name, value)]
  | entry :: rest =>
    if entry.1 = name then (name, value) :: rest else entry :: put name value rest

/-- The entries without those of a given name. -/
def erase {α : Type} (name : String) (entries : List (String × α)) : List (String × α) :=
  entries.filter (·.1 ≠ name)

/-- The names of the entries, in order. -/
def names {α : Type} (entries : List (String × α)) : List String :=
  entries.map (·.1)

/-- The entries after every pair of a sequence is put in turn. -/
def putAll {α : Type} (entries pairs : List (String × α)) : List (String × α) :=
  pairs.foldl (fun acc pair => put pair.1 pair.2 acc) entries

/-- A sequence of pairs with repeated names merged: the place of the first, the value of the
last. -/
def merge {α : Type} (pairs : List (String × α)) : List (String × α) :=
  putAll [] pairs

/-- Entries in the order of their names with one more, put before the first later name. -/
def insertByName {α : Type} (entry : String × α) : List (String × α) → List (String × α)
  | [] => [entry]
  | other :: rest =>
    if other.1 < entry.1 then other :: insertByName entry rest else entry :: other :: rest

/-- The entries in the order of their names. Names compare by code points, which is also the
order of the bytes of their UTF-8 forms. -/
def sortByName {α : Type} (entries : List (String × α)) : List (String × α) :=
  entries.foldr insertByName []

variable {α : Type}

/-- A name just put has the value put. -/
@[simp] theorem get?_put_self (name : String) (value : α) (entries : List (String × α)) :
    get? name (put name value entries) = some value := by
  induction entries with
  | nil => simp [put, get?]
  | cons entry rest ih =>
    simp only [put]
    split
    · simp [get?]
    · simp_all [get?]

/-- Putting a name leaves the others alone. -/
theorem get?_put_of_ne {name other : String} (h : other ≠ name) (value : α)
    (entries : List (String × α)) : get? other (put name value entries) = get? other entries := by
  induction entries with
  | nil => simp [put, get?, Ne.symm h]
  | cons entry rest ih =>
    simp only [put]
    split
    · next he => simp [get?, he, Ne.symm h]
    · simp [get?, ih]

/-- Erasing a name leaves the others alone. -/
theorem get?_erase_of_ne {name other : String} (h : other ≠ name) (entries : List (String × α)) :
    get? other (erase name entries) = get? other entries := by
  induction entries with
  | nil => rfl
  | cons entry rest ih =>
    unfold erase at ih ⊢
    by_cases hname : entry.1 = name
    · have hother : entry.1 ≠ other := fun heq => h (heq.symm.trans hname)
      rw [List.filter_cons_of_neg (by simpa using hname), ih, get?, if_neg hother]
    · rw [List.filter_cons_of_pos (by simpa using hname), get?, get?, ih]

/-- The names after a put: the old ones, and the new one at the end if it was not there. -/
theorem names_put (name : String) (value : α) (entries : List (String × α)) :
    names (put name value entries)
      = if name ∈ names entries then names entries else names entries ++ [name] := by
  induction entries with
  | nil => simp [put, names]
  | cons entry rest ih =>
    simp only [put]
    split
    · next he => simp [names, he]
    · next he =>
      simp only [names, List.map_cons] at ih ⊢
      rw [ih]
      by_cases hm : name ∈ rest.map (·.1) <;> simp [hm, Ne.symm he]

/-- Names stay distinct under a put. -/
theorem nodup_names_put {name : String} {value : α} {entries : List (String × α)}
    (h : (names entries).Nodup) : (names (put name value entries)).Nodup := by
  rw [names_put]
  split
  · exact h
  · next hm => exact List.nodup_append.2 ⟨h, by simp, by rintro a ha b hb rfl; simp_all⟩

/-- Names stay distinct under any sequence of puts. -/
theorem nodup_names_putAll {entries : List (String × α)} (h : (names entries).Nodup)
    (pairs : List (String × α)) : (names (putAll entries pairs)).Nodup := by
  induction pairs generalizing entries with
  | nil => exact h
  | cons pair pairs ih => exact ih (nodup_names_put h)

/-- Merged entries have distinct names. -/
theorem nodup_names_merge (pairs : List (String × α)) : (names (merge pairs)).Nodup :=
  nodup_names_putAll (by simp [names]) pairs

end EndpointTypings.Entries
