import EndpointTypings.FileTree.Node

/-!
# Walks

A path is followed through a tree of nodes segment by segment. `FileTree.walk` finds the place at
the end of segments or says why there is none, and `FileTree.walkLinks` goes on where a link leads;
what is found is a `Place`.

`FileTree.Leads` is the walk without the reasons: one rule for each way in which a segment is
passed, so that what holds of every place that a path leads to is an induction on the rules.
`FileTree.walk_eq_ok_iff` says that the rules are those of the walk. The first such fact is
`FileTree.Leads.stands`: the place is in the tree what it says.
-/

namespace EndpointTypings

/-- Why an operation on files fails. -/
inductive OsError where
  /-- There is no such file or directory. -/
  | notFound
  /-- There is one already. -/
  | alreadyExists
  /-- A directory is needed on the way. -/
  | notADirectory
  /-- A directory cannot be read or written as a file. -/
  | isADirectory
  /-- A name or a path is too long. -/
  | nameTooLong
  /-- Links lead to links without end. -/
  | tooManyLinks
  /-- A folder is in use. -/
  | busy
  /-- A null character stands in a path. -/
  | nullInPath
  /-- Another reason, in words. -/
  | other (reason : String)
  deriving DecidableEq, Repr

/-- The words for an error of the file system. -/
def OsError.message : OsError → String
  | notFound => "No such file or directory (os error 2)"
  | alreadyExists => "File exists (os error 17)"
  | notADirectory => "Not a directory (os error 20)"
  | isADirectory => "Is a directory (os error 21)"
  | nameTooLong => "File name too long (os error 36)"
  | tooManyLinks => "Too many levels of symbolic links (os error 40)"
  | busy => "Device or resource busy (os error 16)"
  | nullInPath => "file name contained an unexpected NUL byte"
  | other reason => reason

/-- What a path stands for in a file tree, each with the names that lead to it from the root. -/
inductive Place where
  /-- A folder. -/
  | folder (names : List String)
  /-- A file with its bytes. -/
  | file (names : List String) (content : ByteArray)
  /-- A link that is not followed because the path ends there. -/
  | link (names : List String)
  /-- Nothing, in a folder that exists. -/
  | vacant (names : List String)

/-- What a path is followed for. -/
inductive Aim where
  /-- What the path leads to; a link at its end is followed. -/
  | target
  /-- The entry the path names, which may be a link. -/
  | entry
  /-- A file to be written, which may be new; a link at the end is followed, and no slash may follow
  the last name. -/
  | writing
  deriving DecidableEq, Repr

/-- Whether a place is in a tree what it says: a file holds its bytes, and a vacant place is a name
that is missing in a folder. -/
def Place.Stands (root : Node) : Place → Prop
  | file names content => root.at? names = some (.file content)
  | vacant names => ∃ above name entries, names = above ++ [name] ∧
      root.at? above = some (.folder entries) ∧ root.at? names = none
  | folder names => ∃ entries, root.at? names = some (.folder entries)
  | link names => ∃ target, root.at? names = some (.link target)

/-- Whether a place is one to write a file to: a file, or nothing in a folder that exists. -/
def Place.isWritableAt (names : List String) : Place → Prop
  | file found _ => found = names
  | vacant found => found = names
  | folder _ => False
  | link _ => False

/-- A place to write to that stands in a tree takes a file. -/
theorem Place.Stands.takesFile {root : Node} {place : Place} {names : List String}
    (h : place.Stands root) (hw : place.isWritableAt names) : root.TakesFile names := by
  cases place with
  | folder found => exact absurd hw id
  | link found => exact absurd hw id
  | file found content =>
    obtain rfl : found = names := hw
    exact .inl ⟨content, h⟩
  | vacant found =>
    obtain rfl : found = names := hw
    exact .inr h

namespace FileTree

/-- The number of bytes a name may have. -/
def maxName : Nat := 255

/-- The number of bytes a path has to stay below. -/
def maxPath : Nat := 4096

/-- The number of links that are followed on one path. -/
def maxLinks : Nat := 40

/-- The place at the end of segments, seen from a folder; `onLink` goes on at a link. -/
def walk (root : Node) (aim : Aim)
    (onLink : List String → Path → List String → Except OsError Place) :
    List String → List String → Except OsError Place
  | [], names =>
    match root.at? names with
    | some (.folder _) => .ok (.folder names)
    | some (.file content) => .ok (.file names content)
    | _ => .error .notFound
  | segment :: rest, names =>
    match root.at? names with
    | some (.folder entries) =>
      -- only a folder can be passed, even by a segment that stays in it
      if segment = "" || segment = "." then walk root aim onLink rest names
      else if segment = ".." then walk root aim onLink rest names.dropLast
      -- a slash behind the last name makes it the name of a folder, whatever the name is
      else if aim = .writing && !rest.isEmpty && rest.all (· = "") then .error .isADirectory
      else if maxName < segment.utf8ByteSize then .error .nameTooLong
      else
        match Entries.get? segment entries with
        | none =>
          -- a name that is missing is a vacant place if nothing but slashes follows it
          if rest.all (· = "") then .ok (.vacant (names ++ [segment]))
          else .error .notFound
        | some (.link target) =>
          if rest.isEmpty && aim = .entry then .ok (.link (names ++ [segment]))
          else onLink names target rest
        | some _ => walk root aim onLink rest (names ++ [segment])
    | _ => .error .notADirectory

/-- The segments of a path as names. -/
def segmentsOf (path : Path) : List String :=
  path.segments.map String.ofList

/-- The place at the end of segments, following at most the given number of links. -/
def walkLinks (root : Node) (aim : Aim) : Nat →
    List String → List String → Except OsError Place
  | 0 => walk root aim fun _ _ _ => .error .tooManyLinks
  | links + 1 => walk root aim fun names target rest =>
    walkLinks root aim links (segmentsOf target ++ rest)
      (if target.isAbsolute then [] else names)

/-! ## Walks that arrive -/

/-- A segment that stays in the folder. -/
def IsIdle (segment : String) : Prop :=
  segment = "" ∨ segment = "."

instance : DecidablePred IsIdle := fun _ => inferInstanceAs (Decidable (_ ∨ _))

/-- A segment that names an entry. -/
def IsName (segment : String) : Prop :=
  ¬ IsIdle segment ∧ segment ≠ ".." ∧ segment.utf8ByteSize ≤ maxName

instance : DecidablePred IsName := fun _ => inferInstanceAs (Decidable (_ ∧ _ ∧ _))

/-- What may follow a name: where a file is to be written, not just slashes. -/
def MayFollow (aim : Aim) (rest : List String) : Prop :=
  ¬ (aim = .writing ∧ rest ≠ [] ∧ ∀ segment ∈ rest, segment = "")

/-- The places that segments lead to, seen from a folder. -/
inductive Leads (root : Node) (aim : Aim)
    (onLink : List String → Path → List String → Except OsError Place) :
    List String → List String → Place → Prop
  /-- The way ends in a folder. -/
  | folder {names : List String} {entries : List (String × Node)}
      (at_names : root.at? names = some (.folder entries)) :
      Leads root aim onLink [] names (.folder names)
  /-- The way ends at a file. -/
  | file {names : List String} {content : ByteArray}
      (at_names : root.at? names = some (.file content)) :
      Leads root aim onLink [] names (.file names content)
  /-- A segment stays in a folder. -/
  | idle {segment : String} {rest names : List String} {entries : List (String × Node)}
      {place : Place} (at_names : root.at? names = some (.folder entries)) (hs : IsIdle segment)
      (onward : Leads root aim onLink rest names place) :
      Leads root aim onLink (segment :: rest) names place
  /-- A segment goes to the folder above. -/
  | up {rest names : List String} {entries : List (String × Node)} {place : Place}
      (at_names : root.at? names = some (.folder entries))
      (onward : Leads root aim onLink rest names.dropLast place) :
      Leads root aim onLink (".." :: rest) names place
  /-- The last name is missing. -/
  | vacant {segment : String} {rest names : List String} {entries : List (String × Node)}
      (at_names : root.at? names = some (.folder entries)) (hs : IsName segment)
      (hr : MayFollow aim rest) (missing : root.at? (names ++ [segment]) = none)
      (last : ∀ segment ∈ rest, segment = "") :
      Leads root aim onLink (segment :: rest) names (.vacant (names ++ [segment]))
  /-- The way ends at a link that is not followed. -/
  | link {segment : String} {names : List String} {entries : List (String × Node)} {target : Path}
      (at_names : root.at? names = some (.folder entries)) (hs : IsName segment)
      (ha : aim = .entry) (found : root.at? (names ++ [segment]) = some (.link target)) :
      Leads root aim onLink [segment] names (.link (names ++ [segment]))
  /-- The way goes on at a link. -/
  | follow {segment : String} {rest names : List String} {entries : List (String × Node)}
      {target : Path} {place : Place} (at_names : root.at? names = some (.folder entries))
      (hs : IsName segment) (hr : MayFollow aim rest) (ha : ¬ (rest = [] ∧ aim = .entry))
      (found : root.at? (names ++ [segment]) = some (.link target))
      (onward : onLink names target rest = .ok place) :
      Leads root aim onLink (segment :: rest) names place
  /-- The way goes on below an entry. -/
  | enter {segment : String} {rest names : List String} {entries : List (String × Node)}
      {node : Node} {place : Place} (at_names : root.at? names = some (.folder entries))
      (hs : IsName segment) (hr : MayFollow aim rest)
      (found : root.at? (names ++ [segment]) = some node) (noLink : ∀ target, node ≠ .link target)
      (onward : Leads root aim onLink rest (names ++ [segment]) place) :
      Leads root aim onLink (segment :: rest) names place

variable {root : Node} {aim : Aim}
  {onLink : List String → Path → List String → Except OsError Place}
  {segment : String} {rest names : List String} {entries : List (String × Node)}

/-- A walk passes an idle segment. -/
theorem walk_idle (h : root.at? names = some (.folder entries)) (hs : IsIdle segment) :
    walk root aim onLink (segment :: rest) names = walk root aim onLink rest names := by
  have hs' : (segment = "" || segment = ".") = true := by simpa [IsIdle] using hs
  simp only [walk, h, hs', if_true]

/-- A walk passes two dots into the folder above. -/
theorem walk_up (h : root.at? names = some (.folder entries)) :
    walk root aim onLink (".." :: rest) names = walk root aim onLink rest names.dropLast := by
  simp [walk, h]

/-- A walk passes a name by what the folder has under it. -/
theorem walk_name (h : root.at? names = some (.folder entries)) (hs : IsName segment)
    (hr : MayFollow aim rest) :
    walk root aim onLink (segment :: rest) names =
      match root.at? (names ++ [segment]) with
      | none => if rest.all (· = "") then .ok (.vacant (names ++ [segment])) else .error .notFound
      | some (.link target) =>
        if rest.isEmpty && aim = .entry then .ok (.link (names ++ [segment]))
        else onLink names target rest
      | some _ => walk root aim onLink rest (names ++ [segment]) := by
  obtain ⟨hidle, hup, hlen⟩ := hs
  have hidle' : (segment = "" || segment = ".") = false := by simpa [IsIdle] using hidle
  have hslash : (aim = .writing && !rest.isEmpty && rest.all (· = "")) = false := by
    rw [Bool.eq_false_iff]
    intro hb
    apply hr
    simpa [and_assoc] using hb
  have hshort : ¬ maxName < segment.utf8ByteSize := Nat.not_lt.2 hlen
  rw [Node.at?_concat h]
  cases hg : Entries.get? segment entries with
  | none => simp only [walk, h, hg, hidle', hup, hslash, hshort, if_false, Bool.false_eq_true]
  | some node =>
    cases node <;>
      simp only [walk, h, hg, hidle', hup, hslash, hshort, if_false, Bool.false_eq_true]

/-- A walk that arrives follows the rules. -/
theorem Leads.of_walk {segments : List String} {place : Place}
    (h : walk root aim onLink segments names = .ok place) :
    Leads root aim onLink segments names place := by
  induction segments generalizing names with
  | nil =>
    simp only [walk] at h
    split at h
    · next entries he =>
      obtain rfl : Place.folder names = place := by simpa using h
      exact .folder he
    · next content he =>
      obtain rfl : Place.file names content = place := by simpa using h
      exact .file he
    · cases h
  | cons segment rest ih =>
    -- only a folder can be passed
    cases hn : root.at? names with
    | none => simp [walk, hn] at h
    | some node =>
      cases node with
      | file content => simp [walk, hn] at h
      | link target => simp [walk, hn] at h
      | folder entries =>
        by_cases hidle : IsIdle segment
        · rw [walk_idle hn hidle] at h
          exact .idle hn hidle (ih h)
        by_cases hup : segment = ".."
        · subst hup
          rw [walk_up hn] at h
          exact .up hn (ih h)
        have hidle' : (segment = "" || segment = ".") = false := by simpa [IsIdle] using hidle
        have hr : MayFollow aim rest := by
          rintro ⟨rfl, hne, hall⟩
          simp only [walk, hn, hidle', hup, if_false, Bool.false_eq_true] at h
          rw [if_pos (by simpa [hne] using hall)] at h
          cases h
        have hlen : segment.utf8ByteSize ≤ maxName := by
          refine Nat.not_lt.1 fun hlong => ?_
          simp only [walk, hn, hidle', hup, hlong, if_true, if_false, Bool.false_eq_true] at h
          split at h <;> cases h
        have hs : IsName segment := ⟨hidle, hup, hlen⟩
        rw [walk_name hn hs hr] at h
        split at h
        · next missing =>
          split at h
          · next hlast =>
            obtain rfl : Place.vacant (names ++ [segment]) = place := by simpa using h
            exact .vacant hn hs hr missing (by simpa using hlast)
          · cases h
        · next target found =>
          split at h
          · next hend =>
            obtain ⟨rfl, ha⟩ : rest = [] ∧ aim = .entry := by simpa using hend
            obtain rfl : Place.link (names ++ [segment]) = place := by simpa using h
            exact .link hn hs ha found
          · next hend => exact .follow hn hs hr (by simpa using hend) found h
        · next node noLink found => exact .enter hn hs hr found (fun target => by grind) (ih h)

/-- What follows the rules is a walk that arrives. -/
theorem Leads.walk_eq {segments : List String} {place : Place}
    (h : Leads root aim onLink segments names place) :
    walk root aim onLink segments names = .ok place := by
  induction h with
  | folder at_names => simp [walk, at_names]
  | file at_names => simp [walk, at_names]
  | idle at_names hs _ ih => rw [walk_idle at_names hs, ih]
  | up at_names _ ih => rw [walk_up at_names, ih]
  | vacant at_names hs hr missing last =>
    rw [walk_name at_names hs hr, missing]
    simp only [List.all_eq_true, decide_eq_true_eq]
    rw [if_pos last]
  | link at_names hs ha found =>
    have hr : MayFollow aim [] := fun h => h.2.1 rfl
    rw [walk_name at_names hs hr, found]
    simp [ha]
  | follow at_names hs hr ha found onward =>
    rw [walk_name at_names hs hr, found]
    simp only [Bool.and_eq_true, List.isEmpty_iff, decide_eq_true_eq]
    rw [if_neg ha, onward]
  | @enter segment rest names entries node place at_names hs hr found noLink _ ih =>
    rw [walk_name at_names hs hr, found, ← ih]
    cases node with
    | file content => rfl
    | folder entries => rfl
    | link target => exact absurd rfl (noLink target)

/-- A walk arrives at a place exactly if the rules lead there. -/
theorem walk_eq_ok_iff {segments : List String} {place : Place} :
    walk root aim onLink segments names = .ok place ↔ Leads root aim onLink segments names place :=
  ⟨Leads.of_walk, Leads.walk_eq⟩

variable {segments : List String} {place : Place}

/-- A place that segments lead to stands in the tree, if those found behind links do. -/
theorem Leads.stands
    (hlink : ∀ names target rest place, onLink names target rest = .ok place → place.Stands root)
    (h : Leads root aim onLink segments names place) : place.Stands root := by
  induction h with
  | folder at_names => exact ⟨_, at_names⟩
  | file at_names => exact at_names
  | idle _ _ _ ih => exact ih
  | up _ _ ih => exact ih
  | vacant at_names _ _ missing _ => exact ⟨_, _, _, rfl, at_names, missing⟩
  | link _ _ _ found => exact ⟨_, found⟩
  | follow _ _ _ _ _ onward => exact hlink _ _ _ _ onward
  | enter _ _ _ _ _ _ ih => exact ih

/-- A place found over any number of links stands in the tree. -/
theorem walkLinks_stands {links : Nat} (h : walkLinks root aim links segments names = .ok place) :
    place.Stands root := by
  induction links generalizing segments names place with
  | zero => exact (Leads.of_walk h).stands fun _ _ _ _ hl => by cases hl
  | succ links ih => exact (Leads.of_walk h).stands fun _ _ _ _ hl => ih hl

end FileTree

end EndpointTypings
