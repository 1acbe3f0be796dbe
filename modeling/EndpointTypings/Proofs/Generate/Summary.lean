import EndpointTypings.Proofs.Generate.Modes
import EndpointTypings.Proofs.Interface.Header
import EndpointTypings.Proofs.Registry.Repeated

/-!
# The summary of a run

A run that writes or checks its output ends with a summary, which in the format `json` can be read
back. `Generate.summary_read_back` says what comes out: the members in their order, and what the
numbers and texts in them are in terms of the document that was read at the start, the text that is
generated and the file that is written.

The numbers are read back as they are up to 64 bits, which is no bound for a text in memory. For the
number of endpoints this follows from the number of bytes, as each method takes some.
-/

namespace EndpointTypings

/-! ## Methods in a file -/

/-- There are no more pieces than bytes if no piece is empty. -/
theorem Text.length_le_utf8ByteSize_join {pieces : List String} (h : ∀ piece ∈ pieces, piece ≠ "") :
    pieces.length ≤ (String.join pieces).utf8ByteSize := by
  induction pieces with
  | nil => exact Nat.zero_le _
  | cons piece pieces ih =>
    obtain ⟨hpiece, hpieces⟩ := List.forall_mem_cons.1 h
    have hpos : piece.utf8ByteSize ≠ 0 := mt String.utf8ByteSize_eq_zero_iff.1 hpiece
    have hrest := ih hpieces
    rw [List.length_cons, String.join_cons, String.utf8ByteSize_append]
    omega

namespace Interface

/-- The signatures of the endpoints of a registry. -/
def signatures (config : Config) (registry : Registry) : List String :=
  registry.toList.map fun endpoint =>
    signature config.ambientNamespace endpoint.1 endpoint.2

/-- There is one signature for each endpoint. -/
theorem length_signatures (config : Config) (registry : Registry) :
    (signatures config registry).length = registry.size :=
  List.length_map _

/-- The file for a registry is its signatures, each between line feeds, behind the opening and
before a closing brace. -/
theorem document_eq_signatures (config : Config) (registry : Registry) :
    document config registry = opening config
      ++ String.join ((signatures config registry).map fun signature => "\n" ++ signature ++ "\n")
      ++ "\n\x7d" := by
  rw [signatures, List.map_map]
  exact document_eq_blocks config registry

/-- A file has no more signatures than bytes. -/
theorem size_le_utf8ByteSize (config : Config) (registry : Registry) :
    registry.size ≤ (document config registry).utf8ByteSize := by
  have hpieces : ∀ piece ∈ (signatures config registry).map fun signature =>
      "\n" ++ signature ++ "\n", piece ≠ "" := by
    simp
  have hjoin := Text.length_le_utf8ByteSize_join hpieces
  rw [List.length_map, length_signatures] at hjoin
  rw [document_eq_signatures, String.utf8ByteSize_append, String.utf8ByteSize_append]
  omega

end Interface

/-! ## Loading -/

/-- A registry that is loaded is that of the text in the document. -/
theorem Registry.exists_parse_of_load {tree : FileTree} {source : Path} {registry : Registry}
    (h : tree.run (load source) = (.ok registry, tree)) :
    ∃ content, tree.readText source = .ok content ∧ parse content = .ok registry := by
  rw [run_load] at h
  have h := congrArg Prod.fst h
  dsimp only at h
  split at h
  · cases hread : tree.readText source with
    | error fault =>
      rw [hread] at h
      cases h
    | ok content =>
      rw [hread] at h
      dsimp only at h
      cases hparse : parse content with
      | error fault =>
        rw [hparse] at h
        cases h
      | ok loaded =>
        rw [hparse] at h
        cases h
        exact ⟨content, rfl, hparse⟩
  · cases h

namespace Generate

open Json

variable {tree after : FileTree} {request : GenerateRequest} {mode : Mode} {format : OutputFormat}
  {colored : Bool} {outcome : Outcome} {draft : Draft} {action : Action}

/-! ## Summaries -/

/-- Whether an output is up to date, where that was asked for. -/
def Action.upToDate? : Action → Option Bool
  | written => none
  | checked upToDate => some upToDate

/-- The summary of a run, member by member. -/
theorem report_eq (draft : Draft) (action : Action) :
    report draft action = .obj ([("interface", .str draft.interfaceName),
      ("endpoint_count", .int draft.endpointCount), ("source", .str draft.source.text),
      ("output_path", .str draft.outputPath.text), ("bytes", .int draft.text.utf8ByteSize),
      ("action", .str (if action.upToDate? = none then "written" else "checked"))]
      ++ (action.upToDate?.map fun upToDate => ("up_to_date", .bool upToDate)).toList) := by
  cases action <;> rfl

/-- The names in a summary are distinct. -/
theorem distinct_report (draft : Draft) (action : Action) : Distinct (report draft action) := by
  cases action with
  | written =>
    refine .obj (by simp [Entries.names]) ?_
    simp only [List.cons_append, List.nil_append, List.forall_mem_cons]
    exact ⟨.str _, .int _, .str _, .str _, .int _, .str _, nofun⟩
  | checked upToDate =>
    refine .obj (by simp [Entries.names]) ?_
    simp only [List.cons_append, List.nil_append, List.forall_mem_cons]
    exact ⟨.str _, .int _, .str _, .str _, .int _, .str _, .bool _, nofun⟩

/-- The values in a summary are texts, truth values and numbers of at most 64 bits. -/
theorem plain_report (hcount : draft.endpointCount < 2 ^ 64)
    (hbytes : draft.text.utf8ByteSize < 2 ^ 64) (action : Action) :
    Plain maxDepth (report draft action) := by
  have hnumber : ∀ n : Nat, n < 2 ^ 64 → Plain 126 (.int n) := fun n hn =>
    .int (isWord_natCast hn)
  cases action with
  | written =>
    refine .obj ?_
    simp only [List.cons_append, List.nil_append, List.forall_mem_cons]
    exact ⟨.str _, hnumber _ hcount, .str _, .str _, hnumber _ hbytes, .str _, nofun⟩
  | checked upToDate =>
    refine .obj ?_
    simp only [List.cons_append, List.nil_append, List.forall_mem_cons]
    exact ⟨.str _, hnumber _ hcount, .str _, .str _, hnumber _ hbytes, .str _, .bool _, nofun⟩

/-- A summary whose numbers have at most 64 bits is read back. -/
theorem parse_summary (draft : Draft) (hcount : draft.endpointCount < 2 ^ 64)
    (hbytes : draft.text.utf8ByteSize < 2 ^ 64) (colored : Bool) (action : Action) :
    Json.parse (summary .json colored draft action) = .ok (report draft action) := by
  have hreport :=
    ((plain_report hcount hbytes action).isDocument (distinct_report draft action)).2
  -- the line feed at the end is white space behind the document
  have hline : (summary .json colored draft action).toList
      = (report draft action).pretty.toList ++ ['\n'] := String.toList_append
  rw [Json.parse_eq_ok_iff, hline]
  exact hreport.append_blank (isBlank_newline 0)

/-! ## Runs -/

/-- A run that ends with a summary has written its text to the output, or has checked it. -/
theorem exists_action_of_run (hm : mode ≠ .print)
    (hp : tree.attempt (prepare request) = (.ok draft, tree))
    (h : tree.attempt (run (request.inMode mode) format colored) = (.ok outcome, after)) :
    ∃ action, outcome = ⟨summary format colored draft action, action.exitCode⟩ ∧
      (mode = .write ↔ action.upToDate? = none) ∧
      (mode = .write → after.read draft.outputPath = .ok draft.text.toUTF8) := by
  rw [attempt_run_finish format colored hm hp] at h
  cases mode with
  | print => exact absurd rfl hm
  | write =>
    rw [decide_eq_false (by decide)] at h
    rcases attempt_finish_write tree draft with ⟨wrote, hf, hread⟩ | ⟨failure, wrote, -, hf⟩
    · rw [hf] at h
      cases h
      exact ⟨.written, rfl, by simp [Action.upToDate?], fun _ => hread⟩
    · rw [hf] at h
      cases h
  | check =>
    rw [decide_eq_true rfl] at h
    rcases attempt_finish_check tree draft with ⟨_, -, hf⟩ | ⟨-, hf⟩ | ⟨_, failure, -, -, -, hf⟩
    · rw [hf] at h
      cases h
      exact ⟨.checked _, rfl, by simp [Action.upToDate?], nofun⟩
    · rw [hf] at h
      cases h
      exact ⟨.checked false, rfl, by simp [Action.upToDate?], nofun⟩
    · rw [hf] at h
      cases h

/-- A run succeeds unless it was asked whether the output is up to date and it is not. -/
theorem Action.exitCode_value_eq_zero_iff (action : Action) :
    action.exitCode.value = 0 ↔ action.upToDate? = none ∨ action.upToDate? = some true := by
  cases action with
  | written => simp [exitCode, upToDate?, ExitCode.success]
  | checked upToDate =>
    cases upToDate <;> simp [exitCode, upToDate?, ExitCode.success, ExitCode.failure]

/-- The summary of a run that writes or checks its output, in the format `json`, is read back as an
object of the name of the interface, the number of endpoints, the paths of the document and the
output, the number of bytes of the text, what was done and, after a check only, whether the output
is up to date. The text is the one that printing gives from the same tree, and what is written is
as long. There are as many endpoints as there are signatures in the text and different names in the
last `default` of the document. The run succeeds unless the output was checked and is not up to
date. -/
theorem summary_read_back (hm : mode ≠ .print)
    (h : tree.attempt (run (request.inMode mode) .json colored) = (.ok outcome, after)) :
    ∃ config source registry text path upToDate,
      Settles tree request config source registry text ∧
      path = Output.resolve (baseIn tree request) request.outdir source config.defaultOutputDir ∧
      (∀ format colored, tree.attempt (run (request.inMode .print) format colored)
        = (.ok ⟨text, .success⟩, tree)) ∧
      (text.utf8ByteSize < 2 ^ 64 → Json.parse outcome.stdout = .ok (.obj (
        [("interface", .str config.interfaceName.text), ("endpoint_count", .int registry.size),
          ("source", .str source.text), ("output_path", .str path.text),
          ("bytes", .int text.utf8ByteSize),
          ("action", .str (if mode = .write then "written" else "checked"))]
        ++ (upToDate.map fun upToDate => ("up_to_date", .bool upToDate)).toList))) ∧
      (mode = .write ↔ upToDate = none) ∧
      (outcome.exitCode.value = 0 ↔ upToDate = none ∨ upToDate = some true) ∧
      (mode = .write → ∃ content, after.read path = .ok content ∧
        content.size = text.utf8ByteSize) ∧
      (Interface.signatures config registry).length = registry.size ∧
      text = Interface.opening config
        ++ String.join ((Interface.signatures config registry).map fun signature =>
          "\n" ++ signature ++ "\n") ++ "\n\x7d" ∧
      ∃ content document members, tree.readText source = .ok content ∧
        IsVerbatimDocument content.toList (.obj document) ∧
        Entries.get? "default" document.reverse = some (.obj members) ∧
        registry.size = (Entries.names members).eraseDups.length := by
  rcases prepare_cases tree request with
    ⟨failure, -, hp⟩ | ⟨config, source, registry, text, hsettles, hp⟩
  · rw [attempt_run_of_error hp] at h
    cases h
  obtain ⟨action, rfl, hmode, hwrite⟩ := exists_action_of_run hm hp h
  obtain rfl : Interface.document config registry = text := by
    simpa [Interface.render_spec] using hsettles.assembled
  obtain ⟨content, hread, hparse⟩ := Registry.exists_parse_of_load hsettles.loaded
  obtain ⟨document, members, hdocument, hdefault, hsize⟩ := Registry.size_of_parse hparse
  refine ⟨config, source, registry, _, _, action.upToDate?, hsettles, rfl,
    fun format colored => attempt_run_print hp, fun hbytes => ?_, hmode,
    action.exitCode_value_eq_zero_iff, fun hw => ⟨_, hwrite hw, String.size_toByteArray⟩,
    Interface.length_signatures config registry, Interface.document_eq_signatures config registry,
    content, document, members, hread, hdocument, hdefault, hsize⟩
  have hcount := Nat.lt_of_le_of_lt (Interface.size_le_utf8ByteSize config registry) hbytes
  have hback := parse_summary (draftOf tree request config source registry _) hcount hbytes
    colored action
  simp only [hmode]
  exact hback.trans (congrArg Except.ok (report_eq _ action))

/-- A project with a document of one endpoint, given twice, and a quote in its name. -/
def quotedProject : FileTree :=
  .ofEntries [("a\"b.json",
    .file "\x7b\"default\":\x7b\"é\":\x7b\x7d,\"é\":\x7b\x7d\x7d\x7d".toUTF8)]

/-- A request for that document. -/
def ofQuoted : GenerateRequest :=
  { GenerateRequest.empty with source := some ⟨"a\"b.json"⟩ }

/-- What is settled for the request. -/
def quotedDraft : Draft where
  interfaceName := "IApis"
  endpointCount := 1
  source := ⟨"/a\"b.json"⟩
  outputPath := ⟨"/mippApiListTypes/a\"b.d.ts"⟩
  text := "/*\n * @Description 主包接口定义声明\n */\n\ninterface IApis \x7b\n  /**\n   *
   * apiName: undefined\n   *\n   */\n  é(\n    opts: IApiOpts<null>,
  ): Promise<IApiSuccess<any>>;\n\n\x7d"

/-- The summary gives the paths with the quote, one endpoint, and the bytes of the file, which are
more than its characters. -/
theorem summary_read_back_quotedProject :
    ∃ outcome after, quotedProject.attempt (run (ofQuoted.inMode .write) .json false)
        = (.ok outcome, after) ∧
      Json.parse outcome.stdout = .ok (.obj [("interface", .str "IApis"),
        ("endpoint_count", .int 1), ("source", .str "/a\"b.json"),
        ("output_path", .str "/mippApiListTypes/a\"b.d.ts"), ("bytes", .int 179),
        ("action", .str "written")]) ∧
      outcome.exitCode.value = 0 ∧
      ∃ content, after.read quotedDraft.outputPath = .ok content ∧ content.size = 179 := by
  have hok : (quotedProject.attempt (run (ofQuoted.inMode .write) .json false)).1.isOk = true := by
    decide +kernel
  have hprepare : (quotedProject.attempt (prepare ofQuoted)).1 = .ok quotedDraft := by
    decide +kernel
  cases hrun : quotedProject.attempt (run (ofQuoted.inMode .write) .json false) with
  | mk result after =>
    cases result with
    | error failure =>
      rw [hrun] at hok
      cases hok
    | ok outcome =>
      obtain ⟨config, source, registry, text, path, upToDate, hsettles, rfl, -, hparse, hmode,
        hcode, hfile, -⟩ := summary_read_back (by decide) hrun
      rw [attempt_prepare_of_settles hsettles] at hprepare
      obtain ⟨hname, hcount, rfl, hpath, htext⟩ := Draft.mk.inj (Except.ok.inj hprepare)
      have hbytes : text.utf8ByteSize = 179 := by
        rw [htext]
        decide +kernel
      obtain rfl := hmode.1 rfl
      rw [hname, hcount, hpath, hbytes] at hparse
      rw [hpath, hbytes] at hfile
      exact ⟨outcome, after, rfl, hparse (by decide), hcode.2 (.inl rfl), hfile rfl⟩

end Generate

end EndpointTypings
