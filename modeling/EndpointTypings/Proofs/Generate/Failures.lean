import EndpointTypings.Proofs.Generate.Layers
import EndpointTypings.Proofs.Generate.Modes
import EndpointTypings.Proofs.Interface.Header

/-!
# Early failures are the user's

All that can go wrong before a run touches its output lies in what the user gave: the configuration,
the registry document, or where they are. `BlamesUser` says so of a step;
`Generate.FailsEarly.isUserFailure` puts it together for the stages of a run. A configuration is
refused in one of its layers, and the last stage, assembling the text, cannot fail at all.
-/

namespace EndpointTypings

variable {α : Type}

/-- A step fails, if it fails, with an error that lies in what the user gave. -/
def BlamesUser (result : Except Error α) : Prop :=
  ∀ error, result = .error error → error.isUserError = true

/-- A step that gives a value does not fail. -/
theorem blamesUser_ok (a : α) : BlamesUser (.ok a : Except Error α) := nofun

/-- A step that fails with an error of the user. -/
theorem blamesUser_error {error : Error} (h : error.isUserError = true) :
    BlamesUser (.error error : Except Error α) := by
  intro found hfound
  cases hfound
  exact h

/-! ## Registries -/

namespace Registry

/-- Loading a registry. -/
theorem blamesUser_load (tree : FileTree) (path : Path) :
    BlamesUser (tree.run (load path)).1 := by
  rw [run_load]
  split_ifs
  · cases tree.readText path with
    | error fault => exact blamesUser_error rfl
    | ok text =>
      cases hparse : parse text with
      | ok registry =>
        simp only [hparse]
        exact blamesUser_ok registry
      | error fault =>
        simp only [hparse]
        exact blamesUser_error rfl
  · exact blamesUser_error rfl

/-- Looking for a registry document. -/
theorem blamesUser_discover (tree : FileTree) (base : Path) :
    BlamesUser (tree.run (discover base)).1 := by
  rw [run_discover]
  split
  · exact blamesUser_ok _
  · exact blamesUser_error rfl

end Registry

/-! ## Runs -/

/-- A run failed for what the user gave. -/
def Failure.IsUserFailure (failure : Failure) : Prop :=
  ∃ error, failure.cause = .error error ∧ error.isUserError = true

/-- A failed write is nothing that the user gave. -/
theorem Failure.IsUserFailure.not_isWriteFailure {failure : Failure} (h : failure.IsUserFailure) :
    ¬ failure.IsWriteFailure := by
  obtain ⟨error, hcause, huser⟩ := h
  rintro ⟨path, source, hwrite⟩
  rw [hcause] at hwrite
  cases hwrite
  cases huser

namespace Generate

variable {tree : FileTree} {request : GenerateRequest} {failure : Failure}

/-- A step of a run fails for what the user gave if its operation does. -/
theorem isUserFailure_of_orFail {step : StateM FileTree (Except Error α)} {after : FileTree}
    (hstep : BlamesUser (tree.run step).1)
    (h : tree.attempt (orFail step) = (.error failure, after)) : failure.IsUserFailure := by
  have hfailed : (tree.run step).1.mapError Failure.ofError = .error failure :=
    congrArg Prod.fst h
  cases hresult : (tree.run step).1 with
  | ok a =>
    rw [hresult] at hfailed
    cases hfailed
  | error error =>
    rw [hresult] at hfailed
    obtain rfl := Except.error.inj hfailed
    exact ⟨error, rfl, hstep error hresult⟩

/-- A run that cannot settle its configuration fails for what the user gave. -/
theorem isUserFailure_of_resolveConfig {base : Path} {after : FileTree}
    (h : tree.attempt (resolveConfig request base) = (.error failure, after)) :
    failure.IsUserFailure := by
  obtain ⟨context, loaded, hloads, hattempt⟩ := attempt_fileConfig tree request base
  cases hloads with
  | refused hnone reason =>
    rw [resolveConfig, FileTree.attempt_bind_error hattempt] at h
    cases h
    exact ⟨.configuration reason, rfl, rfl⟩
  | @accepted file config hsets hvalid htexts =>
    rw [resolveConfig, FileTree.attempt_bind_ok hattempt] at h
    have hover : BlamesUser (tree.run (pure (overrideAll request config))).1 := by
      show BlamesUser (overrideAll request config)
      rcases overrideAll_cases request hvalid with
        ⟨setting, text, -, -, herror⟩ | ⟨changed, hchanged, -, -⟩
      · rw [herror]
        exact blamesUser_error (setting.isUserError_refusal text)
      · rw [hchanged]
        exact blamesUser_ok changed
    exact isUserFailure_of_orFail hover h

/-- A run that fails before its output fails for what the user gave. -/
theorem FailsEarly.isUserFailure (h : FailsEarly tree request failure) : failure.IsUserFailure := by
  cases h with
  | configuration failed => exact isUserFailure_of_resolveConfig failed
  | lookup configured failed =>
    cases hs : request.source with
    | some path =>
      simp only [resolveSource, hs] at failed
      cases failed
    | none =>
      simp only [resolveSource, hs] at failed
      exact isUserFailure_of_orFail (Registry.blamesUser_discover tree _) failed
  | loading configured found failed =>
    have hload := Registry.blamesUser_load tree
    exact ⟨_, rfl, hload _ _ (congrArg Prod.fst failed)⟩
  | assembly configured found loaded failed =>
    -- assembling the text does not fail
    obtain ⟨rest, hrender⟩ := Interface.render_eq_opening _ _
    rw [hrender] at failed
    cases failed

end Generate

end EndpointTypings
