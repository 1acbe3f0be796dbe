import EndpointTypings.Config.File
import EndpointTypings.Failure
import EndpointTypings.Interface
import EndpointTypings.Output
import EndpointTypings.Registry.Source
import EndpointTypings.Report

/-!
# Generating an interface

One run settles the configuration, finds and reads the registry and renders the interface in memory;
all of this is `Generate.prepare`, which changes no file. Only then it prints the text, compares it
with the file that is there, or writes it (`Generate.run`). So the three modes of a run share
everything up to the text and the path of the output. This is the data flow of section 2 of the
specification, with the options of section 13.
-/

namespace EndpointTypings

/-- What a run is asked to do. -/
structure GenerateRequest where
  /-- The registry document; one is looked for if none is named. -/
  source : Option Path
  /-- The output, a file or a directory. -/
  outdir : Option Path
  /-- The name of the interface, over that of the configuration file. -/
  interfaceName : Option String
  /-- The namespace of the ambient types, over that of the configuration file. -/
  ambientNamespace : Option String
  /-- The header description, over that of the configuration file. -/
  headerDescription : Option String
  /-- The configuration file; the one of the base directory is used if none is named. -/
  config : Option Path
  /-- The directory from which relative paths are seen; the working directory if none is named. -/
  baseDir : Option Path
  /-- Whether the text is printed and no file touched. -/
  stdout : Bool
  /-- Whether the text is compared with the file that is there. -/
  check : Bool
  deriving DecidableEq, Repr

/-- The request that names nothing. -/
def GenerateRequest.empty : GenerateRequest :=
  ⟨none, none, none, none, none, none, none, false, false⟩

namespace Generate

/-- What a run has settled before it touches the output. -/
structure Draft where
  /-- The name of the interface. -/
  interfaceName : String
  /-- The number of methods. -/
  endpointCount : Nat
  /-- The registry document. -/
  source : Path
  /-- The file of the output. -/
  outputPath : Path
  /-- The text of the interface. -/
  text : String
  deriving DecidableEq, Repr

/-- What became of the output. -/
inductive Action where
  /-- It was written. -/
  | written
  /-- It was compared with the text; the answer says whether they are the same. -/
  | checked (upToDate : Bool)
  deriving DecidableEq, Repr

/-- What a run that did not fail leaves behind. -/
structure Outcome where
  /-- What it printed. -/
  stdout : String
  /-- Its exit code. -/
  exitCode : ExitCode
  deriving DecidableEq, Repr

/-- The summary of a run. -/
def report (draft : Draft) (action : Action) : Json :=
  .obj <|
    [("interface", .str draft.interfaceName), ("endpoint_count", .int draft.endpointCount),
      ("source", .str draft.source.text), ("output_path", .str draft.outputPath.text),
      ("bytes", .int draft.text.utf8ByteSize)]
    ++ match action with
      | .written => [("action", .str "written")]
      | .checked upToDate => [("action", .str "checked"), ("up_to_date", .bool upToDate)]

/-- The exit code of a run: a comparison that finds a difference is a failure. -/
def Action.exitCode : Action → ExitCode
  | written => .success
  | checked upToDate => if upToDate then .success else .failure

variable {m : Type → Type} [Monad m] [Files m]

/-- A step whose error ends the run. -/
def orFail {α : Type} (step : m (Except Error α)) : ExceptT Failure m α :=
  ExceptT.mk do return (← step).mapError Failure.ofError

/-- A step whose error ends the run, with what the step was doing. -/
def orFailWithin {α : Type} (context : String) (step : m (Except Error α)) :
    ExceptT Failure m α :=
  ExceptT.mk do return (← step).mapError fun error => (Failure.ofError error).within context

/-- The configuration of the file that a request names, or of the base directory. -/
def fileConfig (request : GenerateRequest) (base : Path) : ExceptT Failure m Config :=
  match request.config with
  | some path => orFailWithin ("failed to load config " ++ path.text) (Config.load (base.join path))
  | none => orFailWithin ("failed to load " ++ Config.fileName) (Config.discover base)

/-- A configuration with a setting made, if the request makes it. -/
def override (setting : Config.Setting) (value : Option String) (config : Config) :
    Except Error Config :=
  match value with
  | none => .ok config
  | some value => config.set setting value

/-- A configuration with all that a request sets, checked as a whole. -/
def overrideAll (request : GenerateRequest) (config : Config) : Except Error Config := do
  let config ← override .interfaceName request.interfaceName config
  let config ← override .ambientNamespace request.ambientNamespace config
  let config ← override .headerDescription request.headerDescription config
  config.build

/-- The configuration of a run: the settings of the request over those of the file over the
standard ones. -/
def resolveConfig (request : GenerateRequest) (base : Path) : ExceptT Failure m Config := do
  let config ← fileConfig request base
  orFail (pure (overrideAll request config))

/-- The registry document of a run. -/
def resolveSource (request : GenerateRequest) (base : Path) : ExceptT Failure m Path :=
  match request.source with
  | some path => pure (base.join path)
  | none => orFail (Registry.discover base)

/-- The failure of a run that has no working directory to see relative paths from. -/
def noWorkingDir (error : OsError) : Failure :=
  ⟨["failed to determine current directory"], .message error.message⟩

/-- The directory from which a run sees relative paths. -/
def resolveBase (request : GenerateRequest) : ExceptT Failure m Path :=
  match request.baseDir with
  | some path => pure path
  | none => ExceptT.mk do return (← Files.workingDir).mapError noWorkingDir

/-- All of a run that comes before the output. -/
def prepare (request : GenerateRequest) : ExceptT Failure m Draft := do
  let base ← resolveBase request
  let config ← resolveConfig request base
  let source ← resolveSource request base
  let registry ←
    orFailWithin ("failed to load registry " ++ source.text) (Registry.load source)
  let text ← orFailWithin "failed to assemble interface" (pure (Interface.render config registry))
  return {
    interfaceName := config.interfaceName.text
    endpointCount := registry.size
    source
    outputPath := Output.resolve base request.outdir source config.defaultOutputDir
    text }

/-- What becomes of the output of a run that does not print it. -/
def finish (check : Bool) (draft : Draft) : ExceptT Failure m Action := do
  if check then
    return .checked (← orFail (Output.isUpToDate draft.outputPath draft.text))
  else
    orFail (Output.write draft.outputPath draft.text)
    return .written

/-- A run. -/
def run (request : GenerateRequest) (format : OutputFormat) (colored : Bool) :
    ExceptT Failure m Outcome := do
  let draft ← prepare request
  -- everything up to here is the same in all modes and changes no file
  if request.stdout then
    return ⟨draft.text, .success⟩
  else
    let action ← finish request.check draft
    return ⟨Report.render format colored (report draft action) ++ "\n", action.exitCode⟩

end Generate

end EndpointTypings
