import EndpointTypings.Proofs.Generate.Failures

/-!
# What a run changes

A run touches files only when it writes its output, after all else has succeeded. `run_effects` says
what that comes to for each way in which a run can end: printing and checking change nothing, nor
does any failure but a failed write; a failed write adds no more than folders above the output; and
a run that succeeds leaves its text in the output, adds folders above it and changes nothing else.
-/

namespace EndpointTypings

namespace Generate

open FileTree (AddsFolders ChangesOnly)

/-- What becomes of the files with the output: a check changes nothing, a failure is a failed write
and adds no more than folders above the output, and otherwise the output is written and the rest
stays. -/
theorem finish_effects (tree : FileTree) (check : Bool) (draft : Draft) :
    ∃ result after, tree.attempt (finish check draft) = (result, after) ∧
      (check = true → after = tree) ∧
      (∀ failure, result = .error failure → failure.IsWriteFailure ∧
        ChangesOnly tree after draft.outputPath fun _ => False) ∧
      (∀ action, result = .ok action → check = false →
        ∃ written, after.place draft.outputPath .target = .ok (.file written draft.text.toUTF8) ∧
          ChangesOnly tree after draft.outputPath (· = written)) := by
  cases check with
  | true =>
    rcases attempt_finish_check tree draft with
      ⟨existing, -, hf⟩ | ⟨-, hf⟩ | ⟨fault, failure, -, -, hwrite, hf⟩
    · exact ⟨_, tree, hf, fun _ => rfl, by rintro _ ⟨⟩, by rintro _ _ ⟨⟩⟩
    · exact ⟨_, tree, hf, fun _ => rfl, by rintro _ ⟨⟩, by rintro _ _ ⟨⟩⟩
    · refine ⟨_, tree, hf, fun _ => rfl, ?_, by rintro _ ⟨⟩⟩
      rintro _ ⟨⟩
      exact ⟨hwrite, AddsFolders.refl.changesOnly⟩
  | false =>
    rw [attempt_finish_false]
    rcases Output.run_write tree draft.outputPath draft.text with
      ⟨mid, after, hwrote, hw⟩ | ⟨failed, source, after, hadds, hw⟩
    · rw [hw]
      exact ⟨_, after, rfl, by rintro ⟨⟩, by rintro _ ⟨⟩,
        fun _ _ _ => hwrote.adds.changesOnly_of_write hwrote.writes⟩
    · rw [hw]
      refine ⟨_, after, rfl, by rintro ⟨⟩, ?_, by rintro _ ⟨⟩⟩
      rintro _ ⟨⟩
      exact ⟨⟨failed, source, rfl⟩, hadds.changesOnly⟩

/-- What a run does to the files, by how it ends. Printing and checking change nothing, and neither
does a failure that is no failed write. A failed write adds no more than folders above the output. A
run that writes leaves its text in the output, and other than that adds no more than folders above
it. -/
theorem run_effects (tree : FileTree) (request : GenerateRequest) (format : OutputFormat)
    (colored : Bool) :
    ∃ result after, tree.attempt (run request format colored) = (result, after) ∧
      (request.stdout = true ∨ request.check = true → after = tree) ∧
      (∀ failure, result = .error failure → ¬ failure.IsWriteFailure → after = tree) ∧
      (∀ failure, result = .error failure → failure.IsWriteFailure →
        ∃ config source registry text path, Settles tree request config source registry text ∧
          path = Output.resolve (baseIn tree request) request.outdir source config.defaultOutputDir ∧
          ChangesOnly tree after path fun _ => False) ∧
      (∀ outcome, result = .ok outcome → request.stdout = false → request.check = false →
        ∃ config source registry text path written,
          Settles tree request config source registry text ∧
          path = Output.resolve (baseIn tree request) request.outdir source config.defaultOutputDir ∧
          after.place path .target = .ok (.file written text.toUTF8) ∧
          ChangesOnly tree after path (· = written)) := by
  rcases prepare_cases tree request with
    ⟨failure, hfails, hp⟩ | ⟨config, source, registry, text, hsettles, hp⟩
  · -- what fails before the output is no failed write
    refine ⟨.error failure, tree, attempt_run_unprepared format colored hp, fun _ => rfl,
      fun _ _ _ => rfl, ?_, by rintro _ ⟨⟩⟩
    rintro _ ⟨⟩ hwrite
    exact absurd hwrite hfails.isUserFailure.not_isWriteFailure
  rw [attempt_run_prepared format colored hp]
  cases hstdout : request.stdout with
  | true => exact ⟨_, tree, rfl, fun _ => rfl, by rintro _ ⟨⟩, by rintro _ ⟨⟩, by rintro _ _ ⟨⟩⟩
  | false =>
    rw [if_neg (by decide)]
    obtain ⟨result, after, hf, hcheck, hfailed, hwritten⟩ := finish_effects tree request.check _
    cases result with
    | error failure =>
      obtain ⟨hwrite, hchanges⟩ := hfailed failure rfl
      rw [hf]
      refine ⟨_, after, rfl, fun h => hcheck (h.resolve_left (by decide)), ?_, ?_, by rintro _ ⟨⟩⟩
      · rintro _ ⟨⟩ hother
        exact absurd hwrite hother
      · exact fun _ _ _ => ⟨config, source, registry, text, _, hsettles, rfl, hchanges⟩
    | ok action =>
      rw [hf]
      refine ⟨_, after, rfl, fun h => hcheck (h.resolve_left (by decide)), by rintro _ ⟨⟩,
        by rintro _ ⟨⟩, ?_⟩
      intro _ _ _ hplain
      obtain ⟨written, hplace, hchanges⟩ := hwritten action rfl hplain
      exact ⟨config, source, registry, text, _, written, hsettles, rfl, hplace, hchanges⟩

end Generate

end EndpointTypings
