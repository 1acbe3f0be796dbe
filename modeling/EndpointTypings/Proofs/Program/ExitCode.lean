import EndpointTypings.Program
import EndpointTypings.Proofs.Generate.Failures

/-!
# Exit codes

The exit code of a run that was understood says why it ended: two if what the user gave is not
acceptable, one if the output could not be written or read or is not up to date, and zero otherwise.
`exitCode_spec` says so by the stages of the run, not by its result: two is the code of the runs
that fail before their output, whatever was added to the failure on the way out.

The name of the format is the exception. It is an argument that is not acceptable, but its error
goes on as a mere text, and the exit code of a text is one (`exitCode_unknown_format`).

A file tree always has a working directory and its output can be printed. What becomes of a run on a
machine without the one or the other is said for any monad (`run_of_noWorkingDir`) and any answer
(`unprinted_spec`).
-/

namespace EndpointTypings

open FileTree (run_bind)

variable {tree : FileTree} {request : GenerateRequest} {format : OutputFormat} {colored : Bool}
  {failure : Failure}

namespace Failure

/-- The exit code of a failure of the user. -/
theorem IsUserFailure.exitCode_eq (h : failure.IsUserFailure) :
    failure.exitCode = .invalidInput := by
  obtain ⟨error, hcause, huser⟩ := h
  rw [exitCode, hcause]
  exact if_pos huser

/-- The exit code of a failed write. -/
theorem IsWriteFailure.exitCode_eq (h : failure.IsWriteFailure) : failure.exitCode = .failure := by
  obtain ⟨path, source, hcause⟩ := h
  rw [exitCode, hcause]
  rfl

end Failure

namespace Generate

/-- What is to be done with a text and the path of an output is done: a check finds it in the file,
or it is written. -/
def FinishDone (tree : FileTree) (check : Bool) (path : Path) (text : String) : Prop :=
  if check then tree.read path = .ok text.toUTF8 else (tree.run (Output.write path text)).1 = .ok ()

/-- What a request asks of a text and the path of its output is done: it is printed instead, or it
is there in the end. -/
def OutputDone (tree : FileTree) (request : GenerateRequest) (path : Path) (text : String) : Prop :=
  request.stdout = true ∨ FinishDone tree request.check path text

/-- The exit codes that a run can end with, and why. -/
inductive Ends (tree : FileTree) (request : GenerateRequest) : ExitCode → Prop
  /-- It fails before its output. -/
  | early {failure : Failure} (fails : FailsEarly tree request failure) :
      Ends tree request .invalidInput
  /-- What it is to do with its output cannot be done, or a check finds a difference. -/
  | undone {config : Config} {source : Path} {registry : Registry} {text : String}
      (settles : Settles tree request config source registry text)
      (notDone : ¬ OutputDone tree request
        (Output.resolve (baseIn tree request) request.outdir source config.defaultOutputDir) text) :
      Ends tree request .failure
  /-- All is done. -/
  | done {config : Config} {source : Path} {registry : Registry} {text : String}
      (settles : Settles tree request config source registry text)
      (done : OutputDone tree request
        (Output.resolve (baseIn tree request) request.outdir source config.defaultOutputDir) text) :
      Ends tree request .success

/-- A run that fails before its output settles nothing. -/
theorem FailsEarly.not_settles {config : Config} {source : Path} {registry : Registry}
    {text : String}
    (h : FailsEarly tree request failure) :
    ¬ Settles tree request config source registry text := by
  intro hsettles
  have hfails := attempt_prepare_of_failsEarly h
  rw [attempt_prepare_of_settles hsettles] at hfails
  cases hfails

/-- What a run settles is settled in one way, as far as its output goes. -/
theorem Settles.output_unique {config config' : Config} {source source' : Path}
    {registry registry' : Registry} {text text' : String}
    (h : Settles tree request config source registry text)
    (h' : Settles tree request config' source' registry' text') :
    Output.resolve (baseIn tree request) request.outdir source config.defaultOutputDir
        = Output.resolve (baseIn tree request) request.outdir source' config'.defaultOutputDir ∧
      text = text' := by
  have hprepared := attempt_prepare_of_settles h
  rw [attempt_prepare_of_settles h'] at hprepared
  have hdraft := Except.ok.inj (congrArg Prod.fst hprepared)
  exact ⟨(congrArg Draft.outputPath hdraft).symm, (congrArg Draft.text hdraft).symm⟩

/-- A run ends with one exit code: failing early and settling exclude each other, and what is
settled is done or not. -/
theorem Ends.unique {code other : ExitCode} (h : Ends tree request code)
    (h' : Ends tree request other) : code = other := by
  cases h with
  | early fails =>
    cases h' with
    | early => rfl
    | undone settles => exact absurd settles fails.not_settles
    | done settles => exact absurd settles fails.not_settles
  | undone settles notDone =>
    cases h' with
    | early fails => exact absurd settles fails.not_settles
    | undone => rfl
    | done settles' done =>
      -- both speak of the same path and text
      obtain ⟨hpath, htext⟩ := settles.output_unique settles'
      rw [hpath, htext] at notDone
      exact absurd done notDone
  | done settles done =>
    cases h' with
    | early fails => exact absurd settles fails.not_settles
    | done => rfl
    | undone settles' notDone =>
      obtain ⟨hpath, htext⟩ := settles.output_unique settles'
      rw [hpath, htext] at done
      exact absurd done notDone

/-- What is to be done with the output fails with a failed write, or ends with a code that says
whether it is done. -/
theorem attempt_finish_ends (tree : FileTree) (check : Bool) (draft : Draft) :
    (∃ failure after, tree.attempt (finish check draft) = (.error failure, after) ∧
      failure.IsWriteFailure ∧ ¬ FinishDone tree check draft.outputPath draft.text) ∨
    ∃ action after, tree.attempt (finish check draft) = (.ok action, after) ∧
      (action.exitCode = .success ∧ FinishDone tree check draft.outputPath draft.text ∨
        action.exitCode = .failure ∧ ¬ FinishDone tree check draft.outputPath draft.text) := by
  cases check with
  | true =>
    have hdone : FinishDone tree true draft.outputPath draft.text
        ↔ tree.readText draft.outputPath = .ok draft.text := FileTree.readText_eq_ok_iff.symm
    rw [hdone]
    rcases attempt_finish_check tree draft with
      ⟨existing, hread, hf⟩ | ⟨hread, hf⟩ | ⟨fault, failure, hread, -, hwrite, hf⟩
    · -- the file reads as a text, which may be another one
      refine .inr ⟨_, tree, hf, ?_⟩
      by_cases hsame : existing = draft.text
      · exact .inl ⟨by simp [Action.exitCode, hsame], by rw [hread, hsame]⟩
      · exact .inr ⟨by simp [Action.exitCode, hsame], by simpa [hread] using hsame⟩
    · exact .inr ⟨_, tree, hf, .inr ⟨rfl, by simp [hread]⟩⟩
    · exact .inl ⟨failure, tree, hf, hwrite, by simp [hread]⟩
  | false =>
    have hdone : FinishDone tree false draft.outputPath draft.text
        ↔ (tree.run (Output.write draft.outputPath draft.text)).1 = .ok () := Iff.rfl
    rw [hdone, attempt_finish_false]
    rcases Output.run_write tree draft.outputPath draft.text with
      ⟨mid, after, -, hw⟩ | ⟨failed, source, after, -, hw⟩
    · rw [hw]
      exact .inr ⟨_, after, rfl, .inl ⟨rfl, rfl⟩⟩
    · rw [hw]
      exact .inl ⟨_, after, rfl, ⟨failed, source, rfl⟩, by rintro ⟨⟩⟩

/-- A run fails for what the user gave or with a failed write, and its exit code is one that it can
end with. -/
theorem attempt_run_ends (tree : FileTree) (request : GenerateRequest) (format : OutputFormat)
    (colored : Bool) :
    (∃ failure after, tree.attempt (run request format colored) = (.error failure, after) ∧
      (failure.IsUserFailure ∨ failure.IsWriteFailure) ∧ Ends tree request failure.exitCode) ∨
    ∃ outcome after, tree.attempt (run request format colored) = (.ok outcome, after) ∧
      Ends tree request outcome.exitCode := by
  rcases fails_or_settles tree request with
    ⟨failure, hfails⟩ | ⟨config, source, registry, text, hsettles⟩
  · have huser := hfails.isUserFailure
    rw [attempt_run_unprepared format colored (attempt_prepare_of_failsEarly hfails)]
    exact .inl ⟨failure, tree, rfl, .inl huser, huser.exitCode_eq ▸ .early hfails⟩
  rw [attempt_run_prepared format colored (attempt_prepare_of_settles hsettles)]
  cases hstdout : request.stdout with
  | true => exact .inr ⟨_, tree, rfl, .done hsettles (.inl hstdout)⟩
  | false =>
    have hprints : ¬ request.stdout = true := by simp [hstdout]
    rw [if_neg (by decide)]
    rcases attempt_finish_ends tree request.check
        (draftOf tree request config source registry text) with
      ⟨failure, after, hf, hwrite, hnot⟩ | ⟨action, after, hf, ⟨hcode, hdone⟩ | ⟨hcode, hnot⟩⟩
    · rw [hf]
      refine .inl ⟨failure, after, rfl, .inr hwrite, ?_⟩
      rw [hwrite.exitCode_eq]
      exact .undone hsettles fun h => h.elim hprints hnot
    · rw [hf]
      refine .inr ⟨_, after, rfl, ?_⟩
      rw [hcode]
      exact .done hsettles (.inr hdone)
    · rw [hf]
      refine .inr ⟨_, after, rfl, ?_⟩
      rw [hcode]
      exact .undone hsettles fun h => h.elim hprints hnot

end Generate

/-- A name that is not one of a format is an argument of the user. -/
theorem OutputFormat.blamesUser_ofString (name : String) : BlamesUser (ofString name) := by
  rw [ofString]
  split
  · exact blamesUser_ok _
  · exact blamesUser_error rfl

namespace Program

variable {environment : Environment} {words : List String} {arguments : CommandLine.Arguments}

/-- A name that is not one of a format ends the program with the words of its error alone. -/
theorem run_of_unknown_format {error : Error} (tree : FileTree)
    (h : start environment words = .ok arguments)
    (hformat : OutputFormat.ofString arguments.format = .error error) :
    tree.run (run environment words) = (.ofFailure ⟨[], .message error.message⟩, tree) := by
  have hsummary : summaryFormat arguments.format = .error ⟨[], .message error.message⟩ := by
    rw [summaryFormat, hformat]
    rfl
  simp only [run, h, execute, hsummary]
  rfl

/-- With the name of a format, the program leaves behind what its command comes to. -/
theorem run_of_format (tree : FileTree) (h : start environment words = .ok arguments)
    (hformat : OutputFormat.ofString arguments.format = .ok format) :
    tree.run (run environment words) =
      match tree.attempt (perform environment format arguments.command) with
      | (.ok outcome, after) => (.ofOutcome outcome, after)
      | (.error failure, after) => (.ofFailure failure, after) := by
  have hsummary : summaryFormat arguments.format = .ok format := by
    rw [summaryFormat, hformat]
    rfl
  simp only [run, h, execute, hsummary]
  rw [run_bind, FileTree.attempt]
  cases tree.run (perform environment format arguments.command).run with
  | mk result after => cases result <;> rfl

/-- The exit code of a command line that was understood. With the name of a format, a run ends with
the code that its stages and its output call for, and every failure is an error of the program whose
kind decides, whatever was added to it; completions succeed. A name that is not one of a format is
an error of the user, but ends with one. -/
theorem exitCode_spec (h : start environment words = .ok arguments) (tree : FileTree) :
    ∃ answer after, tree.run (run environment words) = (answer, after) ∧
      match OutputFormat.ofString arguments.format, arguments.command with
      | .error error, _ => error.isUserError = true ∧ answer.exitCode = .failure ∧ after = tree
      | .ok _, .completions _ => answer.exitCode = .success ∧ after = tree
      | .ok format, .generate request =>
        (∀ code, answer.exitCode = code ↔ Generate.Ends tree request code) ∧
        ∀ failure, (tree.attempt (Generate.run request format environment.isColored)).1
            = .error failure →
          ∃ error, failure.cause = .error error ∧
            answer.exitCode = if error.isUserError then .invalidInput else .failure := by
  cases hformat : OutputFormat.ofString arguments.format with
  | error error =>
    have huser : error.isUserError = true := OutputFormat.blamesUser_ofString _ error hformat
    exact ⟨_, tree, run_of_unknown_format tree h hformat, huser, rfl, rfl⟩
  | ok format =>
    have hrun := run_of_format tree h hformat
    cases hcommand : arguments.command with
    | completions shell =>
      rw [hcommand] at hrun
      exact ⟨_, tree, hrun, rfl, rfl⟩
    | generate request =>
      rw [hcommand] at hrun
      have hperform : tree.attempt (perform environment format (.generate request))
          = tree.attempt (Generate.run request format environment.isColored) := rfl
      rw [hperform] at hrun
      dsimp only
      -- a run ends with one code only, so the one that is found decides for all
      have hcode : ∀ {found code}, Generate.Ends tree request found →
          (found = code ↔ Generate.Ends tree request code) := by
        intro found code hfound
        exact ⟨fun heq => heq ▸ hfound, hfound.unique⟩
      rcases Generate.attempt_run_ends tree request format environment.isColored with
        ⟨failure, after, hresult, hkind, hends⟩ | ⟨outcome, after, hresult, hends⟩
      · rw [hresult] at hrun ⊢
        refine ⟨_, after, hrun, fun code => hcode hends, ?_⟩
        rintro _ ⟨⟩
        rcases hkind with ⟨error, hcause, -⟩ | ⟨path, source, hcause⟩
        · exact ⟨error, hcause, by simp only [Answer.ofFailure, Failure.exitCode, hcause]⟩
        · exact ⟨_, hcause, by simp only [Answer.ofFailure, Failure.exitCode, hcause]⟩
      · rw [hresult] at hrun ⊢
        exact ⟨_, after, hrun, fun code => hcode hends, by rintro _ ⟨⟩⟩

/-- A project whose output was generated before its only endpoint was named. -/
def staleProject : FileTree :=
  .ofEntries [
    ("src", .folder [("apiList.json",
      .file "\x7b\"default\":\x7b\"getUser\":\x7b\"res\":\"IUser\"\x7d\x7d\x7d".toUTF8)]),
    ("mippApiListTypes", .folder [("apiList.d.ts", .file "interface IApis \x7b\n\x7d".toUTF8)])]

/-- The request to check the output. -/
def checkRequest : GenerateRequest :=
  { GenerateRequest.empty with check := true }

/-- A check of a file that is out of date reaches the output and ends with the code of a failure. -/
theorem exitCode_spec_staleProject :
    start ⟨[], false⟩ ["generate", "--check"] = .ok ⟨false, "pretty", .generate checkRequest⟩ ∧
    (∃ config source registry text,
      Generate.Settles staleProject checkRequest config source registry text ∧
      ¬ Generate.OutputDone staleProject checkRequest
        (Output.resolve (Generate.baseIn staleProject checkRequest) none source
          config.defaultOutputDir) text) ∧
    (staleProject.run (run ⟨[], false⟩ ["generate", "--check"])).1.exitCode = .failure := by
  have hstart : start ⟨[], false⟩ ["generate", "--check"]
      = .ok ⟨false, "pretty", .generate checkRequest⟩ := by decide +kernel
  have hformat : OutputFormat.ofString "pretty" = .ok .pretty := by decide +kernel
  have hcode : (staleProject.run (run ⟨[], false⟩ ["generate", "--check"])).1.exitCode
      = .failure := by decide +kernel
  obtain ⟨answer, after, hrun, hspec⟩ := exitCode_spec hstart staleProject
  rw [hformat] at hspec
  refine ⟨hstart, ?_, hcode⟩
  rw [hrun] at hcode
  cases (hspec.1 .failure).1 hcode with
  | undone settles notDone => exact ⟨_, _, _, _, settles, notDone⟩

/-- A format that is not known: its error is one of the user, but the exit code is another. -/
theorem exitCode_unknown_format :
    ∃ arguments error, start ⟨[], false⟩ ["generate", "--format", "yaml"] = .ok arguments ∧
      OutputFormat.ofString arguments.format = .error error ∧ error.isUserError = true ∧
      ((FileTree.empty []).run (run ⟨[], false⟩ ["generate", "--format", "yaml"])).1.exitCode
        ≠ .invalidInput := by
  have hstart : start ⟨[], false⟩ ["generate", "--format", "yaml"]
      = .ok ⟨false, "yaml", .generate .empty⟩ := by decide +kernel
  have hformat : OutputFormat.ofString "yaml" = .error
      (.invalidArgument "invalid output format: 'yaml' (expected: json, text, or pretty)") := by
    decide +kernel
  refine ⟨_, _, hstart, hformat, rfl, ?_⟩
  rw [run_of_unknown_format (.empty []) hstart hformat]
  decide

/-! ## Machines that fail -/

/-- Where there is no working directory, a run that needs it fails before anything else. -/
theorem generate_of_noWorkingDir {m : Type → Type} [Monad m] [LawfulMonad m] [Files m]
    {request : GenerateRequest} {error : OsError} (hbase : request.baseDir = none)
    (hgone : Files.workingDir (m := m) = pure (.error error)) (format : OutputFormat)
    (colored : Bool) :
    (Generate.run (m := m) request format colored).run
      = pure (.error (Generate.noWorkingDir error)) := by
  have hresolve : Generate.resolveBase (m := m) request
      = throw (Generate.noWorkingDir error) := by
    simp only [Generate.resolveBase, hbase, hgone, pure_bind]
    rfl
  simp [Generate.run, Generate.prepare, hresolve]

/-- Where there is no working directory, a command that needs it ends with the code of a failure. -/
theorem run_of_noWorkingDir {m : Type → Type} [Monad m] [LawfulMonad m] [Files m]
    {request : GenerateRequest} {error : OsError}
    (h : start environment words = .ok arguments)
    (hformat : OutputFormat.ofString arguments.format = .ok format)
    (hcommand : arguments.command = .generate request) (hbase : request.baseDir = none)
    (hgone : Files.workingDir (m := m) = pure (.error error)) :
    ∃ answer, run (m := m) environment words = pure answer ∧ answer.stdout = "" ∧
      answer.exitCode = .failure := by
  have hsummary : summaryFormat arguments.format = .ok format := by
    rw [summaryFormat, hformat]
    rfl
  refine ⟨.ofFailure (Generate.noWorkingDir error), ?_, rfl, rfl⟩
  simp only [run, h, execute, hsummary, hcommand, perform]
  rw [generate_of_noWorkingDir hbase hgone, pure_bind]

/-- A command whose output cannot be printed prints nothing and does not end well: the text of an
interface is the output of a run that then failed, and anything else stops the program. -/
theorem unprinted_spec {answer : Answer} (h : start environment words = .ok arguments)
    (hprints : answer.stdout ≠ "") (error : OsError) :
    (unprinted environment words answer error).stdout = "" ∧
      ((∃ request, arguments.command = .generate request ∧ request.stdout = true) ∧
          (unprinted environment words answer error).exitCode = .failure ∨
        (∀ request, arguments.command = .generate request → request.stdout = false) ∧
          (unprinted environment words answer error).exitCode = .stopped) := by
  have hsome : ¬ answer.stdout.isEmpty = true := by simpa using hprints
  rw [unprinted, if_neg hsome, h]
  dsimp only
  cases hcommand : arguments.command with
  | completions shell => exact ⟨rfl, .inr ⟨fun _ heq => (by cases heq), rfl⟩⟩
  | generate request =>
    dsimp only
    cases hstdout : request.stdout with
    | true => exact ⟨rfl, .inl ⟨⟨request, rfl, hstdout⟩, rfl⟩⟩
    | false =>
      refine ⟨rfl, .inr ⟨fun other heq => ?_, rfl⟩⟩
      cases heq
      exact hstdout

end Program

end EndpointTypings
