import EndpointTypings.Proofs.Toml.Tokens
import EndpointTypings.Toml.Tree

/-!
# Outlines of what is written

The outline of a document is read line by line, in as many steps as there are lines. What a line
adds to the outline does not depend on what follows it: a line that gives a key a text adds an
assignment (`linesBelow?_lines`), and a header a section with the lines under it (`lines?_header`).

Where it is not known what follows, the outline still says how it goes on, if there is one: a key at
the start of a line is the first part of an assignment (`exists_assignment_of_lines?`), and behind
one or two brackets that of a section (`exists_section_of_lines?`).
-/

namespace EndpointTypings.Toml

variable {token key opening : Token} {tokens path rest after parts : List Token} {name : String}
  {line : Line} {lines : List Line} {bound steps : Nat} {outline : Outline}

/-! ## Keys -/

/-- A token that says a key is a word, or a string on one line. -/
theorem kind_of_keyName? (h : keyName? key = some name) :
    key.kind = .bare ∨ ∃ basic, key.kind = .string basic false := by
  unfold keyName? at h
  split at h
  · next basic hkind => exact .inr ⟨basic, hkind⟩
  · next hkind => exact .inl hkind
  · cases h

/-- What a token that says a key is, and what it is not. -/
theorem isPathPart_of_keyName? (h : keyName? key = some name) : key.isPathPart = true ∧
    key.isTrivia = false ∧ key.isSound = true ∧ key.kind ≠ .space ∧ key.kind ≠ .dot ∧
      key.kind ≠ .openBracket := by
  rcases kind_of_keyName? h with hkind | ⟨basic, hkind⟩ <;>
    simp [Token.isPathPart, Token.isTrivia, Token.isSound, hkind]

/-- The first part of a dotted key is its first token, unless that is a dot. -/
theorem parts?_cons (hdot : token.kind ≠ .dot) (h : parts? (token :: rest) = some parts) :
    ∃ more, parts = token :: more := by
  cases rest with
  | nil =>
    rw [parts?, if_neg hdot] at h
    exact ⟨[], (Option.some.inj h).symm⟩
  | cons next rest =>
    rw [parts?, if_neg hdot] at h
    split_ifs at h
    · obtain ⟨more, -, hmore⟩ := Option.map_eq_some_iff.1 h
      exact ⟨more, hmore.symm⟩

/-- A path that starts with a key has it as its first part. -/
theorem path?_cons (hk : keyName? key = some name) (h : path? (key :: rest) = some (path, after)) :
    ∃ more, path = key :: more := by
  obtain ⟨hpart, -, -, hspace, hdot, -⟩ := isPathPart_of_keyName? hk
  obtain ⟨parts, hparts, heq⟩ := Option.bind_eq_some_iff.1 h
  obtain rfl : parts = path := congrArg Prod.fst (Option.some.inj heq)
  rw [List.takeWhile_cons_of_pos hpart, List.filter_cons_of_pos (by simpa using hspace)] at hparts
  exact parts?_cons hdot hparts

/-! ## Lines that may be followed by anything -/

/-- A key at the start of a line is the first part of an assignment. -/
theorem exists_assignment_of_lines? (hk : keyName? key = some name)
    (h : lines? bound steps (key :: rest) = some outline) : ∃ more item assignments,
      outline.assignments = (key :: more, item) :: assignments := by
  obtain ⟨-, htrivia, -, -, -, hbracket⟩ := isPathPart_of_keyName? hk
  cases steps with
  | zero => cases h
  | succ steps =>
    have hskip : skipTrivia (key :: rest) = key :: rest :=
      List.dropWhile_cons_of_neg (by simp [htrivia])
    simp only [lines?, hskip, if_neg hbracket] at h
    obtain ⟨⟨⟨path, item⟩, after⟩, hitem, h⟩ := Option.bind_eq_some_iff.1 h
    obtain ⟨end', -, h⟩ := Option.bind_eq_some_iff.1 h
    obtain ⟨below, -, h⟩ := Option.bind_eq_some_iff.1 h
    obtain rfl := Option.some.inj h
    obtain ⟨⟨path', after'⟩, hpath, hitem⟩ := Option.bind_eq_some_iff.1 hitem
    obtain ⟨more, rfl⟩ := path?_cons hk hpath
    obtain ⟨_, -, hitem⟩ := Option.bind_eq_some_iff.1 hitem
    obtain ⟨_, -, hitem⟩ := Option.bind_eq_some_iff.1 hitem
    obtain rfl : key :: more = path := congrArg (·.1.1) (Option.some.inj hitem)
    exact ⟨more, item, below.assignments, rfl⟩

/-- The bracket that opens a header, or the two that open a header of an array. -/
inductive IsOpening : List Token → Prop
  /-- One bracket. -/
  | one {opening : Token} (ho : opening.kind = .openBracket) : IsOpening [opening]
  /-- Two brackets. -/
  | two {opening opening' : Token} (ho : opening.kind = .openBracket)
      (ho' : opening'.kind = .openBracket) : IsOpening [opening, opening']

/-- The first part of the path in a header is the first key in it. -/
theorem path_of_header? {start : Token} {part : Section} (ho : IsOpening (start :: tokens))
    (hk : keyName? key = some name)
    (h : header? start (tokens ++ key :: rest) = some (part, after)) :
    ∃ more, part.path = key :: more := by
  obtain ⟨-, -, -, -, -, hbracket⟩ := isPathPart_of_keyName? hk
  cases ho with
  | one =>
    simp only [header?, List.nil_append, expect?, if_neg hbracket] at h
    obtain ⟨⟨path, end'⟩, hpath, h⟩ := Option.bind_eq_some_iff.1 h
    obtain ⟨_, -, h⟩ := Option.bind_eq_some_iff.1 h
    obtain ⟨more, rfl⟩ := path?_cons hk hpath
    exact ⟨more, (congrArg (·.1.path) (Option.some.inj h)).symm⟩
  | two _ ho' =>
    simp only [header?, List.singleton_append, expect?, if_pos ho'] at h
    obtain ⟨⟨path, end'⟩, hpath, h⟩ := Option.bind_eq_some_iff.1 h
    obtain ⟨_, -, h⟩ := Option.bind_eq_some_iff.1 h
    obtain ⟨_, -, h⟩ := Option.bind_eq_some_iff.1 h
    obtain ⟨more, rfl⟩ := path?_cons hk hpath
    exact ⟨more, (congrArg (·.1.path) (Option.some.inj h)).symm⟩

/-- A key behind the brackets of a header is the first part of its path. -/
theorem exists_section_of_lines? (ho : IsOpening tokens) (hk : keyName? key = some name)
    (h : lines? bound steps (tokens ++ key :: rest) = some outline) :
    outline.assignments = [] ∧ ∃ part sections more, outline.sections = part :: sections ∧
      part.path = key :: more := by
  obtain ⟨start, more, rfl, hstart⟩ : ∃ start more, tokens = start :: more ∧
      start.kind = .openBracket := by
    cases ho with
    | one ho => exact ⟨_, _, rfl, ho⟩
    | two ho => exact ⟨_, _, rfl, ho⟩
  cases steps with
  | zero => cases h
  | succ steps =>
    have hskip : skipTrivia (start :: (more ++ key :: rest)) = start :: (more ++ key :: rest) :=
      List.dropWhile_cons_of_neg (by simp [Token.isTrivia, hstart])
    simp only [lines?, List.cons_append, hskip, if_pos hstart] at h
    obtain ⟨⟨part, after⟩, hpart, h⟩ := Option.bind_eq_some_iff.1 h
    obtain ⟨end', -, h⟩ := Option.bind_eq_some_iff.1 h
    obtain ⟨below, -, h⟩ := Option.bind_eq_some_iff.1 h
    obtain rfl := Option.some.inj h
    obtain ⟨parts, hparts⟩ := path_of_header? ho hk hpart
    exact ⟨rfl, _, below.sections, parts, rfl, hparts⟩

/-! ## Lines that are known -/

/-- The outline of what is below a line, seen from the end of the line. -/
def linesBelow? (bound steps : Nat) (tokens : List Token) : Option Outline :=
  (endOfLine? tokens).bind (lines? bound steps)

/-- An assignment that gives the key of a line its text. -/
inductive Assigns (line : Line) : Assignment → Prop
  /-- The key is its only part, and the string its value. -/
  | mk {key value : Token} (hk : keyName? key = some line.name)
      (hv : value.kind = .string true false)
      (ht : stringText? true false value.text = some line.text) :
      Assigns line ([key], .leaf value)

/-- A line adds an assignment to what is below it. -/
theorem linesBelow?_line (h : IsLine line tokens) : ∃ assignment, Assigns line assignment ∧
    ∀ bound steps rest, linesBelow? bound (steps + 1) (tokens ++ rest)
      = (linesBelow? bound steps rest).map fun outline =>
        ⟨assignment :: outline.assignments, outline.sections⟩ := by
  cases h with
  | @mk newline key space equals space' value hn hk hs he hs' hv ht =>
    refine ⟨_, .mk hk hv ht, fun bound steps rest => ?_⟩
    obtain ⟨hpart, htrivia, -, hspace, hdot, hbracket⟩ := isPathPart_of_keyName? hk
    have hend : endOfLine? ([newline, key, space, equals, space', value] ++ rest)
        = some (key :: space :: equals :: space' :: value :: rest) := by
      simp [endOfLine?, skipSpace, hn.1]
    have hpath : path? (key :: space :: equals :: space' :: value :: rest)
        = some ([key], equals :: space' :: value :: rest) := by
      have hspacePart : space.isPathPart = true := by simp [Token.isPathPart, hs]
      have hequalsPart : equals.isPathPart = false := by simp [Token.isPathPart, he]
      simp [path?, hpart, hspacePart, hequalsPart, hspace, hs, parts?, hdot]
    have hvalue : tree? bound maxDepth (value :: rest) = some (.leaf value, rest) := by
      simp [maxDepth, tree?, hv, leaf?]
    have hitem : assignment? skipSpace (tree? bound maxDepth)
        (key :: space :: equals :: space' :: value :: rest)
          = some (([key], .leaf value), rest) := by
      have hequals : skipSpace (equals :: space' :: value :: rest)
          = equals :: space' :: value :: rest := by simp [skipSpace, he]
      have hvalue' : skipSpace (space' :: value :: rest) = value :: rest := by
        simp [skipSpace, hs', hv]
      simp [assignment?, hpath, hequals, expect?, he, hvalue', hvalue]
    rw [linesBelow?, hend, Option.bind_some]
    have hskip : skipTrivia (key :: space :: equals :: space' :: value :: rest)
        = key :: space :: equals :: space' :: value :: rest :=
      List.dropWhile_cons_of_neg (by simp [htrivia])
    simp only [lines?, hskip, if_neg hbracket, hitem, linesBelow?]
    rw [Option.map_bind]
    exact congrArg (endOfLine? rest).bind (funext fun _ => Option.map_eq_bind.symm)

/-- Lines add their assignments to what is below them. -/
theorem linesBelow?_lines {front : List (List Token)} (h : List.Forall₂ IsLine lines front) :
    ∃ assignments, List.Forall₂ Assigns lines assignments ∧
      ∀ bound steps rest, linesBelow? bound (lines.length + steps) (front.flatten ++ rest)
        = (linesBelow? bound steps rest).map fun outline =>
          ⟨assignments ++ outline.assignments, outline.sections⟩ := by
  induction h with
  | nil =>
    refine ⟨[], .nil, fun bound steps rest => ?_⟩
    rw [List.length_nil, Nat.zero_add, List.flatten_nil, List.nil_append]
    exact Option.map_id'.symm
  | @cons line tokens lines front hline _ ih =>
    obtain ⟨assignment, hassigns, hfirst⟩ := linesBelow?_line hline
    obtain ⟨assignments, hothers, hlines⟩ := ih
    refine ⟨assignment :: assignments, .cons hassigns hothers, fun bound steps rest => ?_⟩
    rw [List.length_cons, Nat.add_right_comm, List.flatten_cons, List.append_assoc, hfirst, hlines,
      Option.map_map]
    rfl

/-- A header adds a section with the assignments that stand below it. -/
theorem lines?_header {header : List Token} (h : IsHeader name header) :
    ∃ key, keyName? key = some name ∧ ∀ bound steps rest, ∃ span,
      lines? bound (steps + 1) (header ++ rest) = (linesBelow? bound steps rest).map fun outline =>
        ⟨[], ⟨span, false, [key], outline.assignments⟩ :: outline.sections⟩ := by
  cases h with
  | @mk opening key closing ho hk hc =>
    refine ⟨key, hk, fun bound steps rest => ⟨⟨opening.span.before, bytesLeft rest⟩, ?_⟩⟩
    obtain ⟨hpart, -, -, hspace, hdot, hbracket⟩ := isPathPart_of_keyName? hk
    have hpath : path? (key :: closing :: rest) = some ([key], closing :: rest) := by
      have hclosing : closing.isPathPart = false := by simp [Token.isPathPart, hc]
      simp [path?, hpart, hclosing, hspace, parts?, hdot]
    have hheader : header? opening (key :: closing :: rest)
        = some (⟨⟨opening.span.before, bytesLeft rest⟩, false, [key], []⟩, rest) := by
      simp [header?, expect?, hbracket, hpath, hc]
    have hskip : skipTrivia (opening :: key :: closing :: rest)
        = opening :: key :: closing :: rest :=
      List.dropWhile_cons_of_neg (by simp [Token.isTrivia, ho])
    simp only [List.cons_append, List.nil_append, lines?, hskip, if_pos ho, hheader, linesBelow?]
    rw [Option.map_bind]
    exact congrArg (endOfLine? rest).bind (funext fun _ => Option.map_eq_bind.symm)

end EndpointTypings.Toml
