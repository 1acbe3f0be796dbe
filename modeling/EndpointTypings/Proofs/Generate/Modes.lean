import EndpointTypings.Proofs.Generate.Stages
import EndpointTypings.Proofs.Output.Effects

/-!
# The modes of a run

A run writes its text, prints it, or checks it against the file that is there. `modes_agree` says
what the three have in common: from the same tree they all fail for the same reason before the
output is touched, or they all settle the same text and the same path. Then printing prints that
text, writing leaves it in the file at that path or fails to write, and checking succeeds exactly
if that file already holds it.

What writing leaves comes from `FileTree.read_of_write`; what checking answers is read off what
stands at the path, decoded as a text.
-/

namespace EndpointTypings

/-- Whether a run failed to write its output, or to read it back. -/
def Failure.IsWriteFailure (failure : Failure) : Prop :=
  ∃ path source, failure.cause = .error (.writeFailed path source)

/-- What a run does with its text. -/
inductive Generate.Mode where
  /-- It is written to the output. -/
  | write
  /-- It is printed. -/
  | print
  /-- It is compared with the output. -/
  | check
  deriving DecidableEq, Repr

/-- The same request in a mode. -/
def GenerateRequest.inMode (request : GenerateRequest) (mode : Generate.Mode) : GenerateRequest :=
  { request with stdout := mode = .print, check := mode = .check }

namespace Generate

open FileTree (attempt_bind_ok attempt_bind_error)

variable {tree : FileTree} {request : GenerateRequest} {format : OutputFormat} {colored : Bool}
  {mode : Mode} {draft : Draft} {failure : Failure}

/-! ## The output -/

/-- Writing the output of a run is writing its text, and a failed write is a failure of the run. -/
theorem attempt_finish_false (tree : FileTree) (draft : Draft) :
    tree.attempt (finish false draft) =
      match tree.run (Output.write draft.outputPath draft.text) with
      | (.ok (), after) => (.ok .written, after)
      | (.error error, after) => (.error (.ofError error), after) := by
  have hf : finish (m := StateM FileTree) false draft
      = orFail (Output.write draft.outputPath draft.text) >>= fun _ => pure .written := rfl
  have ho := attempt_orFail tree (Output.write draft.outputPath draft.text)
  rw [hf]
  cases hw : tree.run (Output.write draft.outputPath draft.text) with
  | mk result after =>
    rw [hw] at ho
    cases result with
    | ok _ =>
      rw [attempt_bind_ok ho]
      rfl
    | error error => rw [attempt_bind_error ho]

/-- Writing the output of a run leaves its text in the file, or it is a failed write. -/
theorem attempt_finish_write (tree : FileTree) (draft : Draft) :
    (∃ after, tree.attempt (finish false draft) = (.ok .written, after) ∧
      after.read draft.outputPath = .ok draft.text.toUTF8) ∨
    ∃ failure after, failure.IsWriteFailure ∧
      tree.attempt (finish false draft) = (.error failure, after) := by
  rw [attempt_finish_false]
  rcases Output.run_write tree draft.outputPath draft.text with
    ⟨mid, after, hwrote, hw⟩ | ⟨failed, source, after, -, hw⟩
  · rw [hw]
    exact .inl ⟨after, rfl, FileTree.read_of_write hwrote.writes⟩
  · rw [hw]
    exact .inr ⟨_, after, ⟨failed, source, rfl⟩, rfl⟩

/-- Checking the output of a run answers whether its file reads as the text, and fails if the file
is there and does not read. -/
theorem attempt_finish_check (tree : FileTree) (draft : Draft) :
    (∃ existing, tree.readText draft.outputPath = .ok existing ∧
      tree.attempt (finish true draft) = (.ok (.checked (existing = draft.text)), tree)) ∨
    (tree.readText draft.outputPath = .error (.os .notFound) ∧
      tree.attempt (finish true draft) = (.ok (.checked false), tree)) ∨
    ∃ fault failure, tree.readText draft.outputPath = .error fault ∧ fault ≠ .os .notFound ∧
      failure.IsWriteFailure ∧ tree.attempt (finish true draft) = (.error failure, tree) := by
  have hf : finish (m := StateM FileTree) true draft
      = orFail (Output.isUpToDate draft.outputPath draft.text) >>= fun same =>
        pure (.checked same) := rfl
  have ho := attempt_orFail tree (Output.isUpToDate draft.outputPath draft.text)
  rw [Output.run_isUpToDate] at ho
  cases hr : tree.readText draft.outputPath with
  | ok existing =>
    rw [hr] at ho
    rw [hf, attempt_bind_ok ho]
    exact .inl ⟨existing, rfl, rfl⟩
  | error fault =>
    rw [hr] at ho
    -- a file that is not there differs from the text, any other fault is a failure
    by_cases hn : fault = .os .notFound
    · subst hn
      rw [hf, attempt_bind_ok ho]
      exact .inr (.inl ⟨rfl, rfl⟩)
    · have hw : tree.attempt (orFail (Output.isUpToDate draft.outputPath draft.text))
          = (.error (.ofError (.writeFailed draft.outputPath.text fault.message)), tree) := by
        rw [ho]
        cases fault with
        | notText => rfl
        | os error =>
          cases error <;> first | rfl | exact absurd rfl hn
      rw [hf, attempt_bind_error hw]
      exact .inr (.inr ⟨fault, _, rfl, hn, ⟨_, _, rfl⟩, rfl⟩)

/-! ## Runs -/

/-- The summary of a run, as it is printed. -/
def summary (format : OutputFormat) (colored : Bool) (draft : Draft) (action : Action) : String :=
  Report.render format colored (report draft action) ++ "\n"

/-- A run that fails before the output ends with that failure. -/
theorem attempt_run_unprepared (format : OutputFormat) (colored : Bool)
    (h : tree.attempt (prepare request) = (.error failure, tree)) :
    tree.attempt (run request format colored) = (.error failure, tree) := by
  rw [run, attempt_bind_error h]

/-- A run that is prepared prints its text, or ends with a summary of what became of the output, or
fails with it. -/
theorem attempt_run_prepared (format : OutputFormat) (colored : Bool)
    (h : tree.attempt (prepare request) = (.ok draft, tree)) :
    tree.attempt (run request format colored) =
      if request.stdout then (.ok ⟨draft.text, .success⟩, tree)
      else match tree.attempt (finish request.check draft) with
        | (.ok action, after) =>
          (.ok ⟨summary format colored draft action, action.exitCode⟩, after)
        | (.error failure, after) => (.error failure, after) := by
  rw [run, attempt_bind_ok h]
  split_ifs
  · rfl
  · cases hf : tree.attempt (finish request.check draft) with
    | mk result after =>
      cases result with
      | error failure => rw [attempt_bind_error hf]
      | ok action =>
        rw [attempt_bind_ok hf]
        rfl

/-- The mode of a request has no part in what comes before the output. -/
theorem prepare_inMode (request : GenerateRequest) (mode : Mode) :
    prepare (m := StateM FileTree) (request.inMode mode) = prepare request := rfl

/-- A run that fails before the output fails so in every mode. -/
theorem attempt_run_of_error (h : tree.attempt (prepare request) = (.error failure, tree)) :
    tree.attempt (run (request.inMode mode) format colored) = (.error failure, tree) := by
  rw [← prepare_inMode request mode] at h
  exact attempt_run_unprepared format colored h

/-- A run that prints its text does nothing else. -/
theorem attempt_run_print (h : tree.attempt (prepare request) = (.ok draft, tree)) :
    tree.attempt (run (request.inMode .print) format colored)
      = (.ok ⟨draft.text, .success⟩, tree) := by
  rw [← prepare_inMode request .print] at h
  rw [attempt_run_prepared format colored h]
  rfl

/-- A run that touches the output ends with a summary of what became of it, or fails with it. -/
theorem attempt_run_finish (format : OutputFormat) (colored : Bool) (hm : mode ≠ .print)
    (h : tree.attempt (prepare request) = (.ok draft, tree)) :
    tree.attempt (run (request.inMode mode) format colored) =
      match tree.attempt (finish (mode = .check) draft) with
      | (.ok action, after) => (.ok ⟨summary format colored draft action, action.exitCode⟩, after)
      | (.error failure, after) => (.error failure, after) := by
  have hs : (request.inMode mode).stdout = false := by simp [GenerateRequest.inMode, hm]
  have hc : (request.inMode mode).check = decide (mode = .check) := rfl
  rw [← prepare_inMode request mode] at h
  rw [attempt_run_prepared format colored h, hs, hc, if_neg (by decide)]

/-- A run that checks ends with success exactly if its file reads as the text, and with a
difference exactly if there is no file or it reads as another text. -/
theorem attempt_run_check (format : OutputFormat) (colored : Bool)
    (h : tree.attempt (prepare request) = (.ok draft, tree)) :
    ((∃ summary, tree.attempt (run (request.inMode .check) format colored)
        = (.ok ⟨summary, .success⟩, tree)) ↔ tree.readText draft.outputPath = .ok draft.text) ∧
    ((∃ summary, tree.attempt (run (request.inMode .check) format colored)
        = (.ok ⟨summary, .failure⟩, tree)) ↔
      tree.readText draft.outputPath = .error (.os .notFound) ∨
        ∃ other, other ≠ draft.text ∧ tree.readText draft.outputPath = .ok other) ∧
    (tree.readText draft.outputPath ≠ .error (.os .notFound) →
      (∀ other, tree.readText draft.outputPath ≠ .ok other) →
      ∃ failure, failure.IsWriteFailure ∧
        tree.attempt (run (request.inMode .check) format colored) = (.error failure, tree)) := by
  have hrun := attempt_run_finish format colored (show Mode.check ≠ .print by decide) h
  rw [decide_eq_true rfl] at hrun
  rcases attempt_finish_check tree draft with
    ⟨existing, hread, hf⟩ | ⟨hread, hf⟩ | ⟨fault, failure, hread, hn, hw, hf⟩
  · rw [hf] at hrun
    by_cases same : existing = draft.text
    · simp [hrun, hread, same, Action.exitCode, ExitCode.success, ExitCode.failure]
    · simp [hrun, hread, same, Action.exitCode, ExitCode.success, ExitCode.failure]
  · rw [hf] at hrun
    simp [hrun, hread, Action.exitCode, ExitCode.success, ExitCode.failure]
  · rw [hf] at hrun
    simp [hrun, hread, hn, hw]

/-- From one tree, the three modes of a request fail alike before the output, or they have one text
and one path in common: printing prints the text, writing leaves it in the file at the path or is a
failed write, and checking succeeds exactly if that file holds the text, finds a difference exactly
if there is no file or it holds another text, and otherwise fails to read it. -/
theorem modes_agree (tree : FileTree) (request : GenerateRequest) (format : OutputFormat)
    (colored : Bool) :
    (∃ failure, FailsEarly tree request failure ∧ ∀ mode,
      tree.attempt (run (request.inMode mode) format colored) = (.error failure, tree)) ∨
    ∃ config source registry text path, Settles tree request config source registry text ∧
      path = Output.resolve (baseIn tree request) request.outdir source config.defaultOutputDir ∧
      tree.attempt (run (request.inMode .print) format colored) = (.ok ⟨text, .success⟩, tree) ∧
      ((∃ summary after,
          tree.attempt (run (request.inMode .write) format colored)
            = (.ok ⟨summary, .success⟩, after) ∧
          after.read path = .ok text.toUTF8) ∨
        ∃ failure after, failure.IsWriteFailure ∧
          tree.attempt (run (request.inMode .write) format colored) = (.error failure, after)) ∧
      ((∃ summary, tree.attempt (run (request.inMode .check) format colored)
          = (.ok ⟨summary, .success⟩, tree)) ↔ tree.read path = .ok text.toUTF8) ∧
      ((∃ summary, tree.attempt (run (request.inMode .check) format colored)
          = (.ok ⟨summary, .failure⟩, tree)) ↔
        tree.read path = .error .notFound ∨
          ∃ other, other ≠ text ∧ tree.read path = .ok other.toUTF8) ∧
      (tree.read path ≠ .error .notFound → (∀ other : String, tree.read path ≠ .ok other.toUTF8) →
        ∃ failure, failure.IsWriteFailure ∧
          tree.attempt (run (request.inMode .check) format colored) = (.error failure, tree)) := by
  -- what comes before the output does not depend on the mode
  rcases prepare_cases tree request with
    ⟨failure, hfails, hp⟩ | ⟨config, source, registry, text, hsettles, hp⟩
  · exact .inl ⟨failure, hfails, fun mode => attempt_run_of_error hp⟩
  · refine .inr ⟨config, source, registry, text, _, hsettles, rfl, attempt_run_print hp, ?_, ?_⟩
    · have hrun := attempt_run_finish format colored (show Mode.write ≠ .print by decide) hp
      rw [decide_eq_false (by decide)] at hrun
      rcases attempt_finish_write tree _ with ⟨after, hf, hread⟩ | ⟨failure, after, hw, hf⟩
      · rw [hf] at hrun
        exact .inl ⟨_, after, hrun, hread⟩
      · rw [hf] at hrun
        exact .inr ⟨failure, after, hw, hrun⟩
    · simpa only [FileTree.readText_eq_ok_iff, FileTree.readText_eq_notFound_iff, ne_eq]
        using attempt_run_check format colored hp

end Generate

end EndpointTypings
