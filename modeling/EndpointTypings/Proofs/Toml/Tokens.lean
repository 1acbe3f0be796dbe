import EndpointTypings.Proofs.Toml.Strings

/-!
# Tokens of what is written

A piece of a text is a token by itself if the lexeme that starts with its first character ends with
its last one (`IsLexeme`). A mark is one whatever follows; a key without quotes ends where no
character of a word follows, and a string ends with its quote. Cutting a text takes such pieces off
its front one by one (`tokensFrom_append`).

A document that is written line by line starts with a header and goes on with lines that give keys a
text. `tokens_headed` are its tokens, whatever follows them.
-/

namespace EndpointTypings.Toml

/-- A piece of a text that is a token of a kind where a text follows. -/
def IsLexeme (kind : TokenKind) (piece rest : List Char) : Prop :=
  ∃ c more, piece = c :: more ∧ lexeme c (more ++ rest) = (kind, more.length)

/-- A text with which no word goes on. -/
def EndsWord (rest : List Char) : Prop :=
  ∀ c, rest.head? = some c → isBareChar c = false

variable {kind : TokenKind} {piece rest s : List Char} {c : Char} {name text : String}

/-- A piece is cut off the front of a text. -/
theorem tokensFrom_append (h : IsLexeme kind piece rest) (bytes : Nat) : ∃ span left,
    tokensFrom bytes (piece ++ rest) = ⟨kind, piece, span⟩ :: tokensFrom left rest := by
  obtain ⟨c, more, rfl, hlexeme⟩ := h
  rw [List.cons_append, tokensFrom, hlexeme]
  simp only [List.take_left, List.drop_left]
  exact ⟨_, _, rfl⟩

/-! ## Pieces -/

/-- A mark is a token by itself. -/
theorem isLexeme_mark (h : markKind? c = some kind) (rest : List Char) :
    IsLexeme kind [c] rest :=
  ⟨c, [], rfl, by rw [lexeme, h]; rfl⟩

/-- A line feed is the end of a line. -/
theorem isLexeme_newline (rest : List Char) : IsLexeme .newline ['\n'] rest :=
  ⟨'\n', [], rfl, rfl⟩

/-- A single space is a token. -/
theorem isLexeme_space (h : ∀ c, rest.head? = some c → isSpace c = false) :
    IsLexeme .space [' '] rest := by
  have hnone : rest.takeWhile isSpace = [] := by
    cases rest with
    | nil => rfl
    | cons c rest => exact List.takeWhile_cons_of_neg (by simp [h c rfl])
  refine ⟨' ', [], rfl, ?_⟩
  have hspace : lexeme ' ' rest = (.space, (rest.takeWhile isSpace).length) := rfl
  rw [List.nil_append, hspace, hnone, List.length_nil]

/-- A character of a bare key goes on with a word and starts one. -/
theorem isBareChar_of_isBareKeyChar (h : isBareKeyChar c = true) :
    isBareChar c = true ∧ c ≠ '"' ∧ c ≠ quote := by
  have hne : ∀ d, isBareKeyChar d = false → c ≠ d := by
    rintro d hd rfl
    rw [hd] at h
    cases h
  refine ⟨?_, hne _ rfl, hne _ rfl⟩
  simp [isBareChar, markKind?, isSpace, hne '.' rfl, hne '=' rfl, hne ',' rfl, hne '[' rfl,
    hne ']' rfl, hne '\x7b' rfl, hne '\x7d' rfl, hne ' ' rfl, hne '\t' rfl, hne '#' rfl,
    hne '\r' rfl, hne '\n' rfl]

/-- A word is read up to where it ends. -/
theorem isLexeme_bare (hne : s ≠ []) (hs : ∀ c ∈ s, isBareKeyChar c = true)
    (hrest : EndsWord rest) : IsLexeme .bare s rest := by
  obtain ⟨c, more, rfl⟩ := List.exists_cons_of_ne_nil hne
  obtain ⟨hc, hmore⟩ := List.forall_mem_cons.1 hs
  obtain ⟨hbare, hq, hq'⟩ := isBareChar_of_isBareKeyChar hc
  have hword : (more ++ rest).takeWhile isBareChar = more := by
    rw [List.takeWhile_append_of_pos fun d hd => (isBareChar_of_isBareKeyChar (hmore d hd)).1]
    cases rest with
    | nil => exact List.append_nil _
    | cons d rest => rw [List.takeWhile_cons_of_neg (by simp [hrest d rfl]), List.append_nil]
  refine ⟨c, more, rfl, ?_⟩
  simp only [isBareChar, Bool.and_eq_true, Option.isNone_iff_eq_none, Bool.not_eq_true',
    decide_eq_true_eq] at hbare
  obtain ⟨⟨⟨⟨hmark, hspace⟩, hcomment⟩, hreturn⟩, hline⟩ := hbare
  simp only [lexeme, hmark, hspace, hcomment, hreturn, hline, hq, hq', hword, decide_false,
    Bool.or_self, if_false, Bool.false_eq_true]

/-- A basic string is read up to its quote, unless a third quote makes it one of several lines. -/
theorem isLexeme_basic (h : IsBasic s text) (hrest : rest.head? ≠ some '"') :
    IsLexeme (.string true false) s rest := by
  cases h with
  | @mk s cs hc =>
    have hlength := basicLength_append hc rest
    have hthree : startsWithThree '"' ('"' :: (s ++ ['"'] ++ rest)) = false := by
      rw [startsWithThree, beq_eq_false_iff_ne]
      cases hc with
      | nil =>
        cases rest with
        | nil => simp
        | cons d rest =>
          have hd : d ≠ '"' := fun heq => hrest (by rw [heq]; rfl)
          simp [hd]
      | plain _ hq => simp [hq]
      | escape => simp
    refine ⟨'"', s ++ ['"'], rfl, ?_⟩
    have hmark : markKind? '"' = none := rfl
    have hspace : isSpace '"' = false := rfl
    simp only [lexeme, hmark, hspace, hthree, if_false, Bool.false_eq_true, decide_true,
      Bool.true_or, if_true]
    simp [hlength]

/-- A literal string is read up to its quote. -/
theorem isLexeme_literal (h : IsLiteral s text) (hrest : rest.head? ≠ some quote) :
    IsLexeme (.string false false) s rest := by
  cases h with
  | @mk s hc =>
    have hlength := literalLength_append hc rest
    have hthree : startsWithThree quote (quote :: (s ++ [quote] ++ rest)) = false := by
      rw [startsWithThree, beq_eq_false_iff_ne]
      cases s with
      | nil =>
        cases rest with
        | nil => simp
        | cons d rest =>
          have hd : d ≠ quote := fun heq => hrest (by rw [heq]; rfl)
          simp [hd]
      | cons d s => simp [(hc d List.mem_cons_self).2]
    refine ⟨quote, s ++ [quote], rfl, ?_⟩
    have hmark : markKind? quote = none := rfl
    have hspace : isSpace quote = false := rfl
    have hother : quote ≠ '#' ∧ quote ≠ '\n' ∧ quote ≠ '\r' ∧ quote ≠ '"' := by decide
    simp only [lexeme, hmark, hspace, hthree, hother, if_false, Bool.false_eq_true, decide_true,
      decide_false, Bool.or_true, if_true]
    simp [hlength]

/-- A key is a token that says its name. -/
theorem isLexeme_key (h : IsKey s name) (hrest : EndsWord rest) : ∃ kind, IsLexeme kind s rest ∧
    ∀ span, keyName? ⟨kind, s, span⟩ = some name := by
  have hhead : ∀ c, isBareChar c = true → rest.head? ≠ some c := by
    intro c hc hrest'
    rw [hrest c hrest'] at hc
    cases hc
  cases h with
  | bare hne hs =>
    refine ⟨.bare, isLexeme_bare hne hs hrest, fun span => ?_⟩
    have hall : s.all isBareKeyChar = true := List.all_eq_true.2 hs
    simp [keyName?, hne, hall]
  | basic hbasic =>
    exact ⟨_, isLexeme_basic hbasic (hhead _ rfl), fun _ => stringText?_of_isBasic hbasic⟩
  | literal hliteral =>
    exact ⟨_, isLexeme_literal hliteral (hhead _ rfl), fun _ => stringText?_of_isLiteral hliteral⟩

/-! ## Lines -/

/-- A line that gives a key a text, written as a basic string. -/
structure Line where
  /-- The key. -/
  name : String
  /-- The text. -/
  text : String
  /-- The text as it is written. -/
  written : String

namespace Line

/-- The key can do without quotes, and what is written spells the text. -/
structure IsWritten (line : Line) : Prop where
  /-- The key stands for itself. -/
  key : IsKey line.name.toList line.name
  /-- The text is a basic string. -/
  value : IsBasic line.written.toList line.text

/-- A line as it stands in a document. -/
def write (line : Line) : String :=
  line.name ++ " = " ++ line.written

end Line

/-- A document of one section: a header and the lines under it. -/
def headed (name : String) (lines : List Line) : String :=
  "[" ++ name ++ "]" ++ String.join (lines.map fun line => "\n" ++ line.write)

/-- The tokens of a line, with the line end before it. -/
inductive IsLine (line : Line) : List Token → Prop
  /-- The key, an equals sign between two spaces, and the string. -/
  | mk {newline key space equals space' value : Token}
      (hn : newline.kind = .newline ∧ newline.text = ['\n']) (hk : keyName? key = some line.name)
      (hs : space.kind = .space) (he : equals.kind = .equals) (hs' : space'.kind = .space)
      (hv : value.kind = .string true false)
      (ht : stringText? true false value.text = some line.text) :
      IsLine line [newline, key, space, equals, space', value]

/-- The tokens of a header. -/
inductive IsHeader (name : String) : List Token → Prop
  /-- The key between brackets. -/
  | mk {opening key closing : Token} (ho : opening.kind = .openBracket)
      (hk : keyName? key = some name) (hc : closing.kind = .closeBracket) :
      IsHeader name [opening, key, closing]

variable {line : Line} {lines : List Line}

/-- A basic string starts with its quote. -/
theorem IsBasic.head?_append (h : IsBasic s text) (rest : List Char) :
    (s ++ rest).head? = some '"' := by
  cases h
  rfl

/-- A line is cut into its tokens. -/
theorem tokensFrom_line (h : line.IsWritten) (hrest : rest.head? ≠ some '"') (bytes : Nat) :
    ∃ tokens left, IsLine line tokens ∧
      tokensFrom bytes (("\n" ++ line.write).toList ++ rest) = tokens ++ tokensFrom left rest := by
  have hpieces : ("\n" ++ line.write).toList ++ rest = ['\n'] ++ (line.name.toList
      ++ ([' '] ++ (['='] ++ ([' '] ++ (line.written.toList ++ rest))))) := by
    simp [Line.write]
  have hends : EndsWord ([' '] ++ (['='] ++ ([' '] ++ (line.written.toList ++ rest)))) := by
    rintro c ⟨⟩
    rfl
  have hquote : ∀ c, (line.written.toList ++ rest).head? = some c → isSpace c = false := by
    rw [h.value.head?_append]
    rintro c ⟨⟩
    rfl
  have hequals : ∀ c, (['='] ++ ([' '] ++ (line.written.toList ++ rest))).head? = some c →
      isSpace c = false := by
    rintro c ⟨⟩
    rfl
  obtain ⟨kind, hkey, hname⟩ := isLexeme_key h.key hends
  obtain ⟨_, left₁, h₁⟩ := tokensFrom_append (isLexeme_newline _) bytes
  obtain ⟨_, left₂, h₂⟩ := tokensFrom_append hkey left₁
  obtain ⟨_, left₃, h₃⟩ := tokensFrom_append (isLexeme_space hequals) left₂
  obtain ⟨_, left₄, h₄⟩ := tokensFrom_append (isLexeme_mark (c := '=') rfl _) left₃
  obtain ⟨_, left₅, h₅⟩ := tokensFrom_append (isLexeme_space hquote) left₄
  obtain ⟨_, left₆, h₆⟩ := tokensFrom_append (isLexeme_basic h.value hrest) left₅
  rw [hpieces, h₁, h₂, h₃, h₄, h₅, h₆]
  refine ⟨[_, _, _, _, _, _], left₆, ?_, rfl⟩
  exact .mk ⟨rfl, rfl⟩ (hname _) rfl rfl rfl rfl (stringText?_of_isBasic h.value)

/-- Lines are cut into their tokens one by one. -/
theorem tokensFrom_lines (h : ∀ line ∈ lines, line.IsWritten) (hrest : rest.head? ≠ some '"')
    (bytes : Nat) : ∃ tokens left, List.Forall₂ IsLine lines tokens ∧
      tokensFrom bytes ((String.join (lines.map fun line => "\n" ++ line.write)).toList ++ rest)
        = tokens.flatten ++ tokensFrom left rest := by
  induction lines generalizing bytes with
  | nil => exact ⟨[], bytes, .nil, rfl⟩
  | cons line lines ih =>
    obtain ⟨hline, hlines⟩ := List.forall_mem_cons.1 h
    rw [List.map_cons, String.join_cons, String.toList_append, List.append_assoc]
    -- what follows a line is the end of the line or what follows all of them
    have hnext : ((String.join (lines.map fun line => "\n" ++ line.write)).toList ++ rest).head?
        ≠ some '"' := by
      cases lines with
      | nil => exact hrest
      | cons next lines => simp
    obtain ⟨tokens, left, htokens, hfirst⟩ := tokensFrom_line hline hnext bytes
    obtain ⟨more, left', hmore, hothers⟩ := ih hlines left
    refine ⟨tokens :: more, left', .cons htokens hmore, ?_⟩
    rw [hfirst, hothers, List.flatten_cons, List.append_assoc]

/-- A document of one section is cut into the tokens of its header and of its lines, whatever
follows, unless it is a quote. -/
theorem tokens_headed (hname : IsKey name.toList name) (h : ∀ line ∈ lines, line.IsWritten)
    {after : String} (hafter : after.toList.head? ≠ some '"') :
    ∃ header front left, IsHeader name header ∧ List.Forall₂ IsLine lines front ∧
      tokens (headed name lines ++ after)
        = header ++ (front.flatten ++ tokensFrom left after.toList) := by
  have hpieces : (headed name lines ++ after).toList = ['['] ++ (name.toList ++ ([']']
      ++ ((String.join (lines.map fun line => "\n" ++ line.write)).toList ++ after.toList))) := by
    simp [headed]
  have hends : ∀ rest, EndsWord ([']'] ++ rest) := by
    rintro rest c ⟨⟩
    rfl
  obtain ⟨kind, hkey, hkeyName⟩ := isLexeme_key hname (hends _)
  rw [tokens, hpieces]
  obtain ⟨_, left₁, h₁⟩ := tokensFrom_append (isLexeme_mark (c := '[') rfl _) _
  obtain ⟨_, left₂, h₂⟩ := tokensFrom_append hkey left₁
  obtain ⟨_, left₃, h₃⟩ := tokensFrom_append (isLexeme_mark (c := ']') rfl _) left₂
  obtain ⟨front, left, hfront, hlines⟩ := tokensFrom_lines h hafter left₃
  refine ⟨[_, _, _], front, left, ?_, hfront, h₁.trans (by rw [h₂, h₃, hlines]; rfl)⟩
  exact .mk rfl (hkeyName _) rfl

end EndpointTypings.Toml
