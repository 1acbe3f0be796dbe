import EndpointTypings.Proofs.Toml.Names

/-!
# Documents with a header and lines

A document that starts with a header and lines that give keys a text is known that far, whatever
follows (`outline?_headed`). If nothing follows, the document is a table of the texts under the
header (`parse_headed`). If a line with another key follows, or another header, and the document can
be read, then the key is in the table under the header, or at the top (`hasField_of_parse_headed`,
`mem_names_of_parse_headed`); and a document that starts with a key or a header defines it
(`mem_names_of_parse`).
-/

namespace EndpointTypings.Toml

variable {name written other : String} {lines : List Line} {assignments : List Assignment}
  {front : List (List Token)} {header : List Token} {table : Table} {line : Line}

/-! ## Tokens of the document -/

/-- A line is as many tokens as one, at least. -/
theorem length_le_flatten (h : List.Forall₂ IsLine lines front) :
    lines.length ≤ front.flatten.length := by
  induction h with
  | nil => exact Nat.le_refl _
  | cons hline _ ih =>
    cases hline
    rw [List.flatten_cons, List.length_append, List.length_cons]
    simp only [List.length_cons, List.length_nil]
    omega

/-- The tokens of a line may stand in a document. -/
theorem IsLine.isSound {tokens : List Token} (h : IsLine line tokens) :
    tokens.all Token.isSound = true := by
  cases h with
  | mk hn hk hs he hs' hv ht =>
    obtain ⟨-, -, hkey, -⟩ := isPathPart_of_keyName? hk
    simp only [List.all_cons, List.all_nil, hkey]
    simp [Token.isSound, hn.1, hn.2, hs, he, hs', hv]

/-- The tokens of a header may stand in a document. -/
theorem IsHeader.isSound (h : IsHeader name header) : header.all Token.isSound = true := by
  cases h with
  | mk ho hk hc =>
    obtain ⟨-, -, hkey, -⟩ := isPathPart_of_keyName? hk
    simp only [List.all_cons, List.all_nil, hkey]
    simp [Token.isSound, ho, hc]

/-- The tokens of lines may stand in a document. -/
theorem isSound_lines (h : List.Forall₂ IsLine lines front) :
    front.flatten.all Token.isSound = true := by
  induction h with
  | nil => rfl
  | cons hline _ ih => rw [List.flatten_cons, List.all_append, hline.isSound, ih]; rfl

/-- The outline of a document with a header and lines is a section with their assignments and those
that follow, and the sections that follow. -/
theorem outline?_headed (hname : IsKey name.toList name) (h : ∀ line ∈ lines, line.IsWritten)
    {after : String} (hafter : after.toList.head? ≠ some '"') :
    ∃ key assignments left bound steps span, keyName? key = some name ∧
      List.Forall₂ Assigns lines assignments ∧
      outline? (tokens (headed name lines ++ after))
        = if (tokensFrom left after.toList).all Token.isSound then
            (linesBelow? bound (steps + 1) (tokensFrom left after.toList)).map fun outline =>
              ⟨[], ⟨span, false, [key], assignments ++ outline.assignments⟩ :: outline.sections⟩
          else none := by
  obtain ⟨header, front, left, hheader, hfront, htokens⟩ := tokens_headed hname h hafter
  obtain ⟨key, hk, hsection⟩ := lines?_header hheader
  obtain ⟨assignments, hassigns, hlines⟩ := linesBelow?_lines hfront
  -- there are more tokens than lines, so the steps do not run out
  obtain ⟨steps, hsteps⟩ : ∃ steps, (tokens (headed name lines ++ after)).length + 1
      = lines.length + (steps + 1) + 1 := by
    have hlength := length_le_flatten hfront
    cases hheader
    rw [htokens, List.length_append, List.length_append]
    simp only [List.length_cons, List.length_nil]
    exact ⟨front.flatten.length - lines.length + (tokensFrom left after.toList).length + 2,
      by omega⟩
  obtain ⟨span, hspan⟩ := hsection (lines.length + (steps + 1) + 1) (lines.length + (steps + 1))
    (front.flatten ++ tokensFrom left after.toList)
  refine ⟨key, assignments, left, lines.length + (steps + 1) + 1, steps, span, hk, hassigns, ?_⟩
  rw [outline?, hsteps, htokens, List.all_append, List.all_append, hheader.isSound,
    isSound_lines hfront, Bool.true_and, Bool.true_and, hspan, hlines, Option.map_map]
  rfl

/-- A text is read as a table exactly if it has an outline, and the outline is read. -/
theorem parse_eq_ok_iff {text : String} : parse text = .ok table ↔
    ∃ outline, outline? (tokens text) = some outline ∧ readOutline outline = .ok table := by
  rw [parse, bind_eq_ok_iff]
  refine exists_congr fun outline => and_congr_left fun _ => ?_
  cases outline? (tokens text) <;> simp [required, malformed]

/-! ## Nothing follows -/

/-- An entry of a table has the key of a line and its text. -/
def Line.Gives (line : Line) (entry : String × Span × Value) : Prop :=
  entry.1 = line.name ∧ ∃ span, entry.2.2 = .scalar span (.string line.text)

/-- Lines with distinct keys that are new add their entries to a table. -/
theorem readAssignments_of_assigns (h : List.Forall₂ Assigns lines assignments)
    (hd : (lines.map Line.name).Nodup) (table : Table)
    (hnew : ∀ line ∈ lines, line.name ∉ Entries.names table) :
    ∃ fields, readAssignments assignments table = .ok (table ++ fields) ∧
      List.Forall₂ Line.Gives lines fields := by
  induction h generalizing table with
  | nil => exact ⟨[], by rw [List.append_nil]; rfl, .nil⟩
  | @cons line assignment lines assignments hassigns _ ih =>
    obtain ⟨hfresh, hd⟩ := List.nodup_cons.1 hd
    obtain ⟨hline, hlines⟩ := List.forall_mem_cons.1 hnew
    cases hassigns with
    | @mk key value hk hv ht =>
      have hvalue : readTree (.leaf value) = .ok (.scalar value.span (.string line.text)) := by
        rw [readTree, readScalar, hv]
        dsimp only
        rw [ht]
        rfl
      have hinsert : Table.insert (.scalar value.span (.string line.text))
          [⟨line.name, key.span⟩] table
            = .ok (table ++ [(line.name, key.span, .scalar value.span (.string line.text))]) := by
        rw [Table.insert, Entries.get?_eq_none_iff.2 hline, Entries.put_of_not_mem hline]
      have hothers : ∀ other ∈ lines, other.name ∉ Entries.names
          (table ++ [(line.name, key.span, .scalar value.span (.string line.text))]) := by
        intro other hother hmem
        rw [Entries.names, List.map_append, List.mem_append] at hmem
        rcases hmem with hmem | hmem
        · exact hlines other hother hmem
        · have heq : other.name = line.name := by simpa using hmem
          exact hfresh (heq ▸ List.mem_map_of_mem hother)
      obtain ⟨fields, hfields, hgives⟩ := ih hd _ hothers
      refine ⟨(line.name, key.span, .scalar value.span (.string line.text)) :: fields, ?_,
        .cons ⟨rfl, value.span, rfl⟩ hgives⟩
      rw [readAssignments, readPath_singleton hk]
      refine bind_eq_ok_iff.2 ⟨_, rfl, bind_eq_ok_iff.2 ⟨_, hvalue, bind_eq_ok_iff.2
        ⟨_, hinsert, hfields.trans ?_⟩⟩⟩
      rw [List.append_assoc]
      rfl

/-- A line end is cut off the front of a text, and what is below it are the lines that follow. -/
theorem exists_newline (left : Nat) (rest : List Char) : ∃ newline left',
    tokensFrom left ('\n' :: rest) = newline :: tokensFrom left' rest ∧
      newline.isSound = true ∧ ∀ bound steps tokens,
        linesBelow? bound steps (newline :: tokens) = lines? bound steps tokens := by
  obtain ⟨span, left', htokens⟩ := tokensFrom_append (isLexeme_newline rest) left
  exact ⟨_, left', htokens, rfl, fun _ _ _ => rfl⟩

/-- A header with lines below it is a document: a table with their texts under the header. -/
theorem parse_headed (hname : IsKey name.toList name) (h : ∀ line ∈ lines, line.IsWritten)
    (hd : (lines.map Line.name).Nodup) {ending : String} (hending : ending = "" ∨ ending = "\n") :
    ∃ place span fields,
      parse (headed name lines ++ ending) = .ok [(name, place, .table span .header fields)] ∧
        List.Forall₂ Line.Gives lines fields := by
  have hquote : ending.toList.head? ≠ some '"' := by
    rcases hending with rfl | rfl <;> decide
  obtain ⟨key, assignments, left, bound, steps, span, hk, hassigns, houtline⟩ :=
    outline?_headed hname h hquote
  -- no line and no section follows
  have hend : (tokensFrom left ending.toList).all Token.isSound = true ∧
      linesBelow? bound (steps + 1) (tokensFrom left ending.toList) = some ⟨[], []⟩ := by
    have hnil : ∀ left, tokensFrom left [] = [] := fun left => by rw [tokensFrom]
    rcases hending with rfl | rfl
    · rw [String.toList_empty, hnil]
      exact ⟨rfl, rfl⟩
    · obtain ⟨newline, left', htokens, hsound, hbelow⟩ := exists_newline left []
      have hlist : "\n".toList = ['\n'] := rfl
      rw [hlist, htokens, hbelow, hnil, List.all_cons, hsound]
      exact ⟨rfl, rfl⟩
  rw [hend.1, if_pos rfl, hend.2, Option.map_some, List.append_nil] at houtline
  obtain ⟨fields, hfields, hgives⟩ := readAssignments_of_assigns hassigns hd []
    (fun _ _ => List.not_mem_nil)
  refine ⟨key.span, span, fields, parse_eq_ok_iff.2 ⟨_, houtline, ?_⟩, hgives⟩
  refine bind_eq_ok_iff.2 ⟨[], rfl, ?_⟩
  rw [List.foldlM_cons]
  exact bind_eq_ok_iff.2 ⟨_, (readSection_nil_eq_ok_iff hk rfl rfl).2 ⟨fields, hfields, rfl⟩, rfl⟩

/-! ## A key follows -/

variable {opening rest : String}

/-- Brackets of a header are cut off the front of a text. -/
theorem tokensFrom_opening (h : opening = "[" ∨ opening = "[[") (bytes : Nat) (rest : List Char) :
    ∃ brackets left, IsOpening brackets ∧
      tokensFrom bytes (opening.toList ++ rest) = brackets ++ tokensFrom left rest := by
  rcases h with rfl | rfl
  · obtain ⟨_, left, h₁⟩ := tokensFrom_append (isLexeme_mark (c := '[') rfl rest) bytes
    exact ⟨[_], left, .one rfl, h₁⟩
  · obtain ⟨_, left₁, h₁⟩ :=
      tokensFrom_append (isLexeme_mark (c := '[') rfl (['['] ++ rest)) bytes
    obtain ⟨_, left₂, h₂⟩ := tokensFrom_append (isLexeme_mark (c := '[') rfl rest) left₁
    exact ⟨[_, _], left₂, .two rfl rfl, h₁.trans (congrArg _ h₂)⟩

/-- A key is cut off the front of a text. -/
theorem tokensFrom_key (h : IsKey written.toList other) (hrest : EndsWord rest.toList)
    (bytes : Nat) : ∃ key left, keyName? key = some other ∧
      tokensFrom bytes (written.toList ++ rest.toList) = key :: tokensFrom left rest.toList := by
  obtain ⟨kind, hlexeme, hname⟩ := isLexeme_key h hrest
  obtain ⟨span, left, htokens⟩ := tokensFrom_append hlexeme bytes
  exact ⟨_, left, hname span, htokens⟩

/-- What is known of a document with a header and lines below which another line starts. -/
theorem exists_below_of_parse_headed (hname : IsKey name.toList name)
    (h : ∀ line ∈ lines, line.IsWritten)
    (hparse : parse (headed name lines ++ "\n" ++ rest) = .ok table) :
    ∃ key assignments left bound steps span below, keyName? key = some name ∧
      lines? bound steps (tokensFrom left rest.toList) = some below ∧
      readOutline ⟨[], ⟨span, false, [key], assignments ++ below.assignments⟩ :: below.sections⟩
        = .ok table := by
  have hquote : ("\n" ++ rest).toList.head? ≠ some '"' := by simp
  have hlist : ("\n" ++ rest).toList = '\n' :: rest.toList := by simp
  obtain ⟨key, assignments, left, bound, steps, span, hk, -, houtline⟩ :=
    outline?_headed hname h hquote
  obtain ⟨newline, left', htokens, -, hbelow⟩ := exists_newline left rest.toList
  obtain ⟨outline, hsome, hread⟩ := parse_eq_ok_iff.1 hparse
  rw [String.append_assoc, houtline, hlist, htokens, hbelow] at hsome
  split_ifs at hsome
  obtain ⟨below, hlines, rfl⟩ := Option.map_eq_some_iff.1 hsome
  exact ⟨key, assignments, left', bound, steps + 1, span, below, hk, hlines, hread⟩

/-- If a line with another key follows, the key is in the table under the header. -/
theorem hasField_of_parse_headed (hname : IsKey name.toList name)
    (h : ∀ line ∈ lines, line.IsWritten) (hother : IsKey written.toList other)
    (hrest : EndsWord rest.toList)
    (hparse : parse (headed name lines ++ "\n" ++ (written ++ rest)) = .ok table) :
    HasField table name other := by
  obtain ⟨key, assignments, left, bound, steps, span, below, hk, hlines, hread⟩ :=
    exists_below_of_parse_headed hname h hparse
  obtain ⟨token, left', htoken, htokens⟩ := tokensFrom_key hother hrest left
  rw [String.toList_append, htokens] at hlines
  obtain ⟨more, item, others, hbelow⟩ := exists_assignment_of_lines? htoken hlines
  obtain ⟨start, hstart, hread⟩ := bind_eq_ok_iff.1 hread
  obtain rfl : [] = start := Except.ok.inj hstart
  rw [List.foldlM_cons, bind_eq_ok_iff] at hread
  obtain ⟨root, hroot, hread⟩ := hread
  obtain ⟨fields, hfields, rfl⟩ := (readSection_nil_eq_ok_iff hk rfl rfl).1 hroot
  refine @foldlM_keeps _ _ _ readSection (HasField · name other) _ _ _
    (fun _ _ _ hfield => hfield.readSection) ?_ hread
  have hmem : (token :: more, item) ∈ assignments ++ below.assignments := by
    rw [hbelow]
    exact List.mem_append_right _ List.mem_cons_self
  exact ⟨key.span, span, fields, by simp [Entries.get?],
    (mem_names_of_readAssignments hfields).2 token more item hmem other htoken⟩

/-- If another header follows, its key is in the table of the document. -/
theorem mem_names_of_parse_headed (hname : IsKey name.toList name)
    (h : ∀ line ∈ lines, line.IsWritten) (hopening : opening = "[" ∨ opening = "[[")
    (hother : IsKey written.toList other) (hrest : EndsWord rest.toList)
    (hparse : parse (headed name lines ++ "\n" ++ (opening ++ written ++ rest)) = .ok table) :
    other ∈ Entries.names table := by
  obtain ⟨key, assignments, left, bound, steps, span, below, -, hlines, hread⟩ :=
    exists_below_of_parse_headed hname h hparse
  obtain ⟨brackets, left₁, hbrackets, htokens₁⟩ := tokensFrom_opening hopening left
    (written.toList ++ rest.toList)
  obtain ⟨token, left₂, htoken, htokens₂⟩ := tokensFrom_key hother hrest left₁
  rw [String.toList_append, String.toList_append, List.append_assoc, htokens₁, htokens₂] at hlines
  obtain ⟨-, part, sections, more, hbelow, hpath⟩ :=
    exists_section_of_lines? hbrackets htoken hlines
  refine (mem_names_of_readOutline hread).2 part ?_ token more other hpath htoken
  rw [hbelow]
  exact List.mem_cons_of_mem _ List.mem_cons_self

/-- No byte order mark starts a key. -/
theorem skipMark_append (h : IsKey written.toList other) (rest : List Char) :
    skipMark (written.toList ++ rest) = written.toList ++ rest := by
  have hstart : ∃ c more, written.toList = c :: more ∧ c.toNat ≠ 0xFEFF := by
    generalize written.toList = s at h
    cases h with
    | bare hne hs =>
      obtain ⟨c, more, rfl⟩ := List.exists_cons_of_ne_nil hne
      refine ⟨c, more, rfl, fun hmark => ?_⟩
      have hc := hs c List.mem_cons_self
      rw [← Char.ofNat_toNat c, hmark] at hc
      cases hc
    | basic hbasic =>
      cases hbasic
      exact ⟨_, _, rfl, by decide⟩
    | literal hliteral =>
      cases hliteral
      exact ⟨_, _, rfl, by decide⟩
  obtain ⟨c, more, hlist, hc⟩ := hstart
  rw [hlist, List.cons_append, skipMark, if_neg hc]

/-- A document that starts with a key, or with a header, has its key in its table. -/
theorem mem_names_of_parse (hopening : opening = "" ∨ opening = "[" ∨ opening = "[[")
    (hother : IsKey written.toList other) (hrest : EndsWord rest.toList)
    (hparse : parse (opening ++ written ++ rest) = .ok table) : other ∈ Entries.names table := by
  obtain ⟨outline, houtline, hread⟩ := parse_eq_ok_iff.1 hparse
  have hskip : skipMark (opening ++ written ++ rest).toList
      = opening.toList ++ (written.toList ++ rest.toList) := by
    rw [String.toList_append, String.toList_append, List.append_assoc]
    rcases hopening with rfl | rfl | rfl
    · exact skipMark_append hother rest.toList
    · rfl
    · rfl
  unfold outline? at houtline
  split_ifs at houtline
  rw [tokens, hskip] at houtline
  rcases hopening with rfl | hopening
  · obtain ⟨token, left, htoken, htokens⟩ := tokensFrom_key hother hrest _
    rw [String.toList_empty, List.nil_append, htokens] at houtline
    obtain ⟨more, item, others, hbelow⟩ := exists_assignment_of_lines? htoken houtline
    refine (mem_names_of_readOutline hread).1 token more item ?_ other htoken
    rw [hbelow]
    exact List.mem_cons_self
  · obtain ⟨brackets, left, hbrackets, htokens⟩ := tokensFrom_opening hopening _
      (written.toList ++ rest.toList)
    obtain ⟨token, left', htoken, htokens'⟩ := tokensFrom_key hother hrest left
    rw [htokens, htokens'] at houtline
    obtain ⟨-, part, sections, more, hbelow, hpath⟩ :=
      exists_section_of_lines? hbrackets htoken houtline
    refine (mem_names_of_readOutline hread).2 part ?_ token more other hpath htoken
    rw [hbelow]
    exact List.mem_cons_self

end EndpointTypings.Toml
