import EndpointTypings.Generate
import EndpointTypings.Proofs.FileTree.Looking

/-!
# The stages of a run

Before a run touches its output it passes four stages: it settles the configuration, looks for the
registry document, loads the registry and assembles the text. `Generate.Settles` is a run whose four
stages succeed, `Generate.FailsEarly` one that ends at the first stage that does not. A run does one
or the other (`Generate.fails_or_settles`), and `Generate.prepare_cases` says what comes of it:
`Generate.prepare` ends as the stages do and only looks at the files.
-/

namespace EndpointTypings.Generate

variable {α : Type}

/-- The directory from which a run in a tree sees relative paths. -/
def baseIn (tree : FileTree) (request : GenerateRequest) : Path :=
  request.baseDir.getD tree.workingPath

/-- The four stages of a run succeed, each with what the one before it gave. -/
structure Settles (tree : FileTree) (request : GenerateRequest) (config : Config) (source : Path)
    (registry : Registry) (text : String) : Prop where
  /-- The configuration is settled. -/
  configured : tree.attempt (resolveConfig request (baseIn tree request)) = (.ok config, tree)
  /-- The registry document is found. -/
  found : tree.attempt (resolveSource request (baseIn tree request)) = (.ok source, tree)
  /-- The registry is loaded. -/
  loaded : tree.run (Registry.load source) = (.ok registry, tree)
  /-- The text is assembled. -/
  assembled : Interface.render config registry = .ok text

/-- One of the four stages of a run fails, and those before it succeed. -/
inductive FailsEarly (tree : FileTree) (request : GenerateRequest) : Failure → Prop
  /-- The configuration cannot be settled. -/
  | configuration {failure : Failure}
      (failed : tree.attempt (resolveConfig request (baseIn tree request))
        = (.error failure, tree)) :
      FailsEarly tree request failure
  /-- There is no registry document. -/
  | lookup {config : Config} {failure : Failure}
      (configured : tree.attempt (resolveConfig request (baseIn tree request)) = (.ok config, tree))
      (failed : tree.attempt (resolveSource request (baseIn tree request))
        = (.error failure, tree)) :
      FailsEarly tree request failure
  /-- The registry cannot be loaded. -/
  | loading {config : Config} {source : Path} {error : Error}
      (configured : tree.attempt (resolveConfig request (baseIn tree request)) = (.ok config, tree))
      (found : tree.attempt (resolveSource request (baseIn tree request)) = (.ok source, tree))
      (failed : tree.run (Registry.load source) = (.error error, tree)) :
      FailsEarly tree request
        ((Failure.ofError error).within ("failed to load registry " ++ source.text))
  /-- The text cannot be assembled. -/
  | assembly {config : Config} {source : Path} {registry : Registry} {error : Error}
      (configured : tree.attempt (resolveConfig request (baseIn tree request)) = (.ok config, tree))
      (found : tree.attempt (resolveSource request (baseIn tree request)) = (.ok source, tree))
      (loaded : tree.run (Registry.load source) = (.ok registry, tree))
      (failed : Interface.render config registry = .error error) :
      FailsEarly tree request ((Failure.ofError error).within "failed to assemble interface")

/-- A step of a run gives what its operation gives, an error as a failure. -/
theorem attempt_orFail (tree : FileTree) (step : StateM FileTree (Except Error α)) :
    tree.attempt (orFail step)
      = ((tree.run step).1.mapError Failure.ofError, (tree.run step).2) := rfl

/-- A step of a run that is told what it does gives what its operation gives, an error as a failure
within that. -/
theorem attempt_orFailWithin (tree : FileTree) (context : String)
    (step : StateM FileTree (Except Error α)) :
    tree.attempt (orFailWithin context step)
      = ((tree.run step).1.mapError fun error => (Failure.ofError error).within context,
        (tree.run step).2) := rfl

/-- Settling the configuration only looks. -/
theorem attempt_resolveConfig_snd (tree : FileTree) (request : GenerateRequest) (base : Path) :
    (tree.attempt (resolveConfig request base)).2 = tree := by
  have hfile : (tree.attempt (fileConfig request base)).2 = tree := by
    cases hc : request.config with
    | none =>
      simp only [fileConfig, hc, attempt_orFailWithin]
      exact Config.onlyLooks_discover base tree
    | some path =>
      simp only [fileConfig, hc, attempt_orFailWithin]
      exact Config.onlyLooks_load (base.join path) tree
  cases hr : tree.attempt (fileConfig request base) with
  | mk result after =>
    obtain rfl : after = tree := by simpa [hr] using hfile
    cases result with
    | error failure => rw [resolveConfig, FileTree.attempt_bind_error hr]
    | ok config =>
      rw [resolveConfig, FileTree.attempt_bind_ok hr, attempt_orFail]
      rfl

/-- Finding the registry document only looks. -/
theorem attempt_resolveSource_snd (tree : FileTree) (request : GenerateRequest) (base : Path) :
    (tree.attempt (resolveSource request base)).2 = tree := by
  cases hs : request.source with
  | some path =>
    simp only [resolveSource, hs]
    rfl
  | none =>
    simp only [resolveSource, hs, attempt_orFail]
    exact Registry.onlyLooks_discover base tree

/-- A step that only looks leaves the tree as it was, whatever it gives. -/
theorem attempt_cases {tree : FileTree} {step : ExceptT Failure (StateM FileTree) α}
    (h : (tree.attempt step).2 = tree) :
    (∃ failure, tree.attempt step = (.error failure, tree)) ∨
      ∃ a, tree.attempt step = (.ok a, tree) := by
  cases hr : tree.attempt step with
  | mk result after =>
    obtain rfl : after = tree := by simpa [hr] using h
    cases result with
    | error failure => exact .inl ⟨failure, rfl⟩
    | ok a => exact .inr ⟨a, rfl⟩

/-- A run in a tree fails at one of its stages or settles all of them. -/
theorem fails_or_settles (tree : FileTree) (request : GenerateRequest) :
    (∃ failure, FailsEarly tree request failure) ∨
      ∃ config source registry text, Settles tree request config source registry text := by
  rcases attempt_cases (attempt_resolveConfig_snd tree request (baseIn tree request)) with
    ⟨failure, hconfig⟩ | ⟨config, hconfig⟩
  · exact .inl ⟨failure, .configuration hconfig⟩
  rcases attempt_cases (attempt_resolveSource_snd tree request (baseIn tree request)) with
    ⟨failure, hsource⟩ | ⟨source, hsource⟩
  · exact .inl ⟨failure, .lookup hconfig hsource⟩
  have hload := (Registry.onlyLooks_load source).run_eq tree
  cases hr : (tree.run (Registry.load source)).1 with
  | error error => exact .inl ⟨_, .loading hconfig hsource (hr ▸ hload)⟩
  | ok registry =>
    rw [hr] at hload
    cases ht : Interface.render config registry with
    | error error => exact .inl ⟨_, .assembly hconfig hsource hload ht⟩
    | ok text => exact .inr ⟨config, source, registry, text, hconfig, hsource, hload, ht⟩

/-- A run in a tree starts by settling where relative paths are seen from, which cannot fail. -/
theorem attempt_resolveBase (tree : FileTree) (request : GenerateRequest) :
    tree.attempt (resolveBase request) = (.ok (baseIn tree request), tree) := by
  cases hb : request.baseDir <;> simp only [baseIn, resolveBase, hb] <;> rfl

/-- Loading the registry is a step of a run. -/
theorem attempt_load {tree : FileTree} {source : Path} {result : Except Error Registry}
    (h : tree.run (Registry.load source) = (result, tree)) :
    tree.attempt (orFailWithin ("failed to load registry " ++ source.text) (Registry.load source))
      = (result.mapError fun error =>
          (Failure.ofError error).within ("failed to load registry " ++ source.text), tree) := by
  rw [attempt_orFailWithin, h]

/-- Assembling the text is a step of a run. -/
theorem attempt_assemble {tree : FileTree} {config : Config} {registry : Registry}
    {result : Except Error String} (h : Interface.render config registry = result) :
    tree.attempt (orFailWithin "failed to assemble interface"
        (pure (Interface.render config registry)))
      = (result.mapError fun error =>
          (Failure.ofError error).within "failed to assemble interface", tree) := by
  rw [attempt_orFailWithin, FileTree.run_pure, h]

/-- What a run has settled when its stages succeed. -/
def draftOf (tree : FileTree) (request : GenerateRequest) (config : Config) (source : Path)
    (registry : Registry) (text : String) : Draft where
  interfaceName := config.interfaceName.text
  endpointCount := registry.size
  source := source
  outputPath := Output.resolve (baseIn tree request) request.outdir source config.defaultOutputDir
  text := text

/-- A run whose stages succeed is prepared with what they gave. -/
theorem attempt_prepare_of_settles {tree : FileTree} {request : GenerateRequest} {config : Config}
    {source : Path} {registry : Registry} {text : String}
    (h : Settles tree request config source registry text) :
    tree.attempt (prepare request)
      = (.ok (draftOf tree request config source registry text), tree) := by
  rw [prepare, FileTree.attempt_bind_ok (attempt_resolveBase tree request),
    FileTree.attempt_bind_ok h.configured, FileTree.attempt_bind_ok h.found,
    FileTree.attempt_bind_ok (attempt_load h.loaded),
    FileTree.attempt_bind_ok (attempt_assemble h.assembled)]
  rfl

/-- A run that fails at one of its stages is not prepared. -/
theorem attempt_prepare_of_failsEarly {tree : FileTree} {request : GenerateRequest}
    {failure : Failure} (h : FailsEarly tree request failure) :
    tree.attempt (prepare request) = (.error failure, tree) := by
  rw [prepare, FileTree.attempt_bind_ok (attempt_resolveBase tree request)]
  cases h with
  | configuration failed => rw [FileTree.attempt_bind_error failed]
  | lookup configured failed =>
    rw [FileTree.attempt_bind_ok configured, FileTree.attempt_bind_error failed]
  | loading configured found failed =>
    rw [FileTree.attempt_bind_ok configured, FileTree.attempt_bind_ok found,
      FileTree.attempt_bind_error (attempt_load failed)]
  | assembly configured found loaded failed =>
    rw [FileTree.attempt_bind_ok configured, FileTree.attempt_bind_ok found,
      FileTree.attempt_bind_ok (attempt_load loaded),
      FileTree.attempt_bind_error (attempt_assemble failed)]

/-- Before it touches the output a run fails at one of its stages or settles all of them; the files
stay as they are. -/
theorem prepare_cases (tree : FileTree) (request : GenerateRequest) :
    (∃ failure, FailsEarly tree request failure ∧
      tree.attempt (prepare request) = (.error failure, tree)) ∨
    ∃ config source registry text, Settles tree request config source registry text ∧
      tree.attempt (prepare request) = (.ok {
        interfaceName := config.interfaceName.text
        endpointCount := registry.size
        source
        outputPath := Output.resolve (baseIn tree request) request.outdir source
          config.defaultOutputDir
        text }, tree) := by
  rcases fails_or_settles tree request with
    ⟨failure, hfails⟩ | ⟨config, source, registry, text, hsettles⟩
  · exact .inl ⟨failure, hfails, attempt_prepare_of_failsEarly hfails⟩
  · exact .inr ⟨config, source, registry, text, hsettles, attempt_prepare_of_settles hsettles⟩

end EndpointTypings.Generate
