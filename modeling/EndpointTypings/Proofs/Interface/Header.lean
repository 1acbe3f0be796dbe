import EndpointTypings.Proofs.Config.Settings
import EndpointTypings.Proofs.Interface.Document

/-!
# The header of the generated file

The file opens with a comment that holds the header description, and the description comes from the
user. `Interface.header_determined` says that it cannot spoil the file: the mark that ends a comment
first stands where the template closes the header, behind the whole description. So the header can
be read back: files with the same text have the same description and the same interface name, and
the same text behind the brace that opens the interface.

Both parts rest on one fact about texts (`Text.append_word_inj`). If a word stands in a text and
nowhere earlier, also not across the end of what stands before it, the text splits at the word in
one way only. The word that splits off the description is the end of a comment, which a valid
description does not hold. The word that splits off the name is a space, which an identifier does
not hold.
-/

namespace EndpointTypings

/-! ## What the header is made of -/

/-- There is no space in the name of an interface. -/
theorem InterfaceName.space_not_mem (name : InterfaceName) : ' ' ∉ name.text.toList := by
  have hname := name.isIdentifier_text
  cases hcs : name.text.toList with
  | nil => simp
  | cons c cs =>
    rw [hcs, isIdentifier, Bool.and_eq_true, List.all_eq_true] at hname
    rintro (_ | ⟨_, hspace⟩)
    · exact absurd hname.1 (by decide)
    · exact absurd (hname.2 ' ' hspace) (by decide)

namespace Interface

/-- The file up to the mark that closes the header. -/
def headerComment (config : Config) : String :=
  "/*\n * @Description " ++ config.headerDescription ++ "\n "

/-- The file up to the brace that opens the interface. -/
def opening (config : Config) : String :=
  headerComment config ++ "*/\n\ninterface " ++ config.interfaceName.text ++ " \x7b"

/-- The characters of the header, up to the mark that closes it. -/
theorem toList_headerComment (config : Config) : (headerComment config).toList
    = "/*\n * @Description".toList ++ ' ' :: config.headerDescription.toList ++ ['\n', ' '] := by
  unfold headerComment
  simp

/-- The characters of the opening, split where the header is closed and where the name ends. -/
theorem toList_opening (config : Config) : (opening config).toList
    = (headerComment config).toList ++ ['*', '/'] ++ ("\n\ninterface ".toList
        ++ (config.interfaceName.text.toList ++ [' '] ++ ['\x7b'])) := by
  unfold opening
  simp

/-- The method of an endpoint as it stands in the file, between line feeds. -/
def block (config : Config) (endpoint : String × Descriptor) : String :=
  "\n" ++ signature config.ambientNamespace endpoint.1 endpoint.2 ++ "\n"

/-- The file for a registry is the opening, the methods and a closing brace. -/
theorem document_eq_blocks (config : Config) (registry : Registry) :
    document config registry
      = opening config ++ String.join (registry.toList.map (block config)) ++ "\n\x7d" := by
  unfold document
  refine congrArg (· ++ _ ++ _) ?_
  rw [← String.toList_inj, toList_opening, toList_headerComment]
  simp

/-- What is generated is the opening, the methods and a closing brace. -/
theorem render_eq_blocks (config : Config) (registry : Registry) :
    render config registry
      = .ok (opening config ++ String.join (registry.toList.map (block config)) ++ "\n\x7d") := by
  rw [← document_eq_blocks]
  refine bind_eq_ok_iff.2 ⟨_, renderBody_eq config registry.toList, ?_⟩
  exact Template.renderNamed_interface _ _ _

/-- What is generated starts with the opening. -/
theorem render_eq_opening (config : Config) (registry : Registry) :
    ∃ rest, render config registry = .ok (opening config ++ rest) :=
  ⟨_, by rw [render_eq_blocks, String.append_assoc]⟩

variable {config other : Config} {rest rest' : List Char}

/-- The end of a comment does not stand in the header before the mark that closes it, nor across
the start of that mark. -/
theorem not_infix_headerComment (h : config.validate = .ok ()) :
    ¬ ['*', '/'] <:+: (headerComment config).toList ++ ['*', '/'].dropLast := by
  have hsplit : (headerComment config).toList ++ ['*', '/'].dropLast
      = "/*\n * @Description".toList
        ++ ' ' :: (config.headerDescription.toList ++ '\n' :: [' ', '*']) := by
    simp [toList_headerComment]
  have hspace : ' ' ∉ ['*', '/'] := by decide
  have hfeed : '\n' ∉ ['*', '/'] := by decide
  rw [hsplit, Text.infix_append_cons_iff hspace, Text.infix_append_cons_iff hfeed]
  rintro (hstart | hdescription | hend)
  · exact absurd (Text.occurs_iff.2 hstart) (by decide)
  · exact (Config.validate_eq_ok_iff.1 h).1 hdescription
  · exact absurd (Text.occurs_iff.2 hend) (by decide)

/-- Openings with the same text behind them are those of one description and one name. -/
theorem opening_inj (h : config.validate = .ok ()) (h' : other.validate = .ok ())
    (heq : (opening config).toList ++ rest = (opening other).toList ++ rest') :
    config.headerDescription = other.headerDescription ∧
      config.interfaceName = other.interfaceName ∧ rest = rest' := by
  rw [toList_opening, toList_opening, List.append_assoc, List.append_assoc _ _ rest'] at heq
  -- the first end of a comment splits off the description
  obtain ⟨hcomment, hbehind⟩ :=
    Text.append_word_inj (not_infix_headerComment h) (not_infix_headerComment h') heq
  have hdescription : config.headerDescription = other.headerDescription := by
    rw [toList_headerComment, toList_headerComment] at hcomment
    simpa [String.toList_inj] using hcomment
  -- the first space behind the fixed text splits off the name
  have hspace : ∀ name : InterfaceName, ¬ [' '] <:+: name.text.toList ++ [' '].dropLast := by
    intro name hin
    rw [List.dropLast_singleton, List.append_nil] at hin
    exact name.space_not_mem (hin.subset List.mem_cons_self)
  rw [List.append_assoc, List.append_assoc _ _ rest', List.append_cancel_left_eq,
    List.append_assoc, List.append_assoc _ _ rest'] at hbehind
  obtain ⟨hname, hrest⟩ :=
    Text.append_word_inj (hspace config.interfaceName) (hspace other.interfaceName) hbehind
  exact ⟨hdescription, InterfaceName.ext (String.toList_inj.1 hname), List.append_cancel_left hrest⟩

/-- For valid configurations, the first end of a comment in a generated file is the one that the
template puts behind the header description, and files with the same text agree in the header
description, the interface name and all that follows the brace of the interface. -/
theorem header_determined (h : config.validate = .ok ()) (h' : other.validate = .ok ())
    (registry registry' : Registry) :
    ∃ text text', render config registry = .ok text ∧ render other registry' = .ok text' ∧
      (headerComment config).toList <+: text.toList ∧
      Text.FirstAt ['*', '/'] text.toList (headerComment config).toList.length ∧
      (text = text' →
        config.headerDescription = other.headerDescription ∧
          config.interfaceName = other.interfaceName ∧
          ∃ rest, text = opening config ++ rest ∧ text' = opening other ++ rest) := by
  obtain ⟨rest, hrender⟩ := render_eq_opening config registry
  obtain ⟨rest', hrender'⟩ := render_eq_opening other registry'
  refine ⟨_, _, hrender, hrender', ?_, ?_, fun heq => ?_⟩
  · rw [String.toList_append, toList_opening, List.append_assoc, List.append_assoc]
    exact List.prefix_append _ _
  · rw [String.toList_append, toList_opening, List.append_assoc _ _ rest.toList]
    exact Text.firstAt_append (not_infix_headerComment h) _
  · have hlist := congrArg String.toList heq
    rw [String.toList_append, String.toList_append] at hlist
    obtain ⟨hdescription, hname, hrest⟩ := opening_inj h h' hlist
    exact ⟨hdescription, hname, rest, rfl, by rw [String.toList_inj.1 hrest]⟩

/-- A configuration whose header description comes near the end of a comment twice: a slash opens
its second line, and a star ends it. -/
def starred : Config :=
  { Config.standard with headerDescription := "Users\n/users/*" }

/-- The same configuration with another directory for the file. -/
def starredElsewhere : Config :=
  { starred with defaultOutputDir := "typings/" }

/-- A registry with a method. -/
def oneUser : Registry :=
  Registry.empty.insert "getUser"
    ⟨some "users/get", some "One user", some ⟨none, some [.named "id"]⟩, some "IUser"⟩

/-- Two configurations that differ where the file does not show it: their files are the same text,
whose header is closed behind the star that ends the description. -/
theorem header_determined_starred :
    starred.validate = .ok () ∧ starredElsewhere.validate = .ok () ∧ starred ≠ starredElsewhere ∧
    ∃ text rest, render starred oneUser = .ok text ∧ render starredElsewhere oneUser = .ok text ∧
      Text.FirstAt ['*', '/'] text.toList (headerComment starred).toList.length ∧
      text = opening starred ++ rest := by
  have h : starred.validate = .ok () := by decide
  have h' : starredElsewhere.validate = .ok () := by decide
  have hne : starred ≠ starredElsewhere := fun heq =>
    absurd (congrArg Config.defaultOutputDir heq) (by decide)
  have hsame : render starredElsewhere oneUser = render starred oneUser := by
    rw [render_eq_blocks, render_eq_blocks]
    rfl
  obtain ⟨text, text', hrender, hrender', -, hfirst, hinj⟩ :=
    header_determined h h' oneUser oneUser
  obtain rfl : text = text' := Except.ok.inj (hrender.symm.trans (hsame.symm.trans hrender'))
  obtain ⟨-, -, rest, hrest, -⟩ := hinj rfl
  exact ⟨h, h', hne, text, rest, hrender, hrender', hfirst, hrest⟩

end Interface

end EndpointTypings
