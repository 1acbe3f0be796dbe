/-!
# Errors

The errors that the program shows to its user, by kind. An error has a text of its own
(`Error.message`) and possibly a source, the text of what caused it, which is shown after it in a
chain. Most kinds are the user's to mend (`Error.isUserError`); the others are failures of the
program or its surroundings. The kinds are those of section 15 of the specification, and section 7
says when each of them arises.
-/

namespace EndpointTypings

/-- An error of the program. -/
inductive Error where
  /-- There is no registry document at a path. -/
  | sourceNotFound (path : String)
  /-- A registry document cannot be read as a registry. -/
  | malformedRegistry (reason : String) (source : Option String)
  /-- A file or directory cannot be written, or a written file cannot be read back. -/
  | writeFailed (path : String) (source : String)
  /-- A configuration is not acceptable. -/
  | configuration (reason : String)
  /-- An argument is not acceptable. -/
  | invalidArgument (reason : String)
  /-- A value is not acceptable for a field. -/
  | validation (field : String) (reason : String)
  /-- A template cannot be filled in. -/
  | template (reason : String) (source : Option String)
  deriving DecidableEq, Repr

namespace Error

/-- The text of an error, without its source. -/
def message : Error → String
  | sourceNotFound path => "Registry source not found: " ++ path
  | malformedRegistry reason _ => "Malformed registry: " ++ reason
  | writeFailed path _ => "Failed to write " ++ path
  | configuration reason => "Configuration error: " ++ reason
  | invalidArgument reason => "Invalid argument: " ++ reason
  | validation field reason => "Validation error in " ++ field ++ ": " ++ reason
  | template reason _ => "Template error: " ++ reason

/-- The text of what caused an error. -/
def source? : Error → Option String
  | malformedRegistry _ source => source
  | writeFailed _ source => some source
  | template _ source => source
  | _ => none

/-- Whether the error lies in what the user gave: a missing or malformed registry, a bad
configuration or a bad argument. -/
def isUserError : Error → Bool
  | sourceNotFound _ => true
  | malformedRegistry _ _ => true
  | configuration _ => true
  | invalidArgument _ => true
  | validation _ _ => true
  | writeFailed _ _ => false
  | template _ _ => false

/-- Whether the registry document was not found. -/
def isSourceNotFound : Error → Bool
  | sourceNotFound _ => true
  | _ => false

/-- Whether the registry document is malformed. -/
def isMalformedRegistry : Error → Bool
  | malformedRegistry _ _ => true
  | _ => false

/-- Whether writing failed, or reading back. -/
def isWriteFailure : Error → Bool
  | writeFailed _ _ => true
  | _ => false

/-- Whether the configuration is not acceptable. -/
def isConfiguration : Error → Bool
  | configuration _ => true
  | _ => false

/-- Whether a value is not acceptable for a field. -/
def isValidation : Error → Bool
  | validation _ _ => true
  | _ => false

/-- Whether a template cannot be filled in. -/
def isTemplate : Error → Bool
  | template _ _ => true
  | _ => false

end Error

end EndpointTypings
