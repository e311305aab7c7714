import ConditionalAssignment.Command

/-!
# Runs of the command

A run works on its sources one by one, so what it leaves behind is put together
from what it would leave behind for each of them alone.  Standard input is the
one thing that sources share: the first `-` takes all of it.  Where at most one
source is read from there, the sources do not affect one another.
-/

namespace ConditionalAssignment

/-! ## Reports -/

namespace Report

theorem output_concat (reports : List Report) :
    (concat reports).output = String.join (reports.map output) := by
  induction reports with
  | nil => rfl
  | cons first others inductionHypothesis =>
      rw [List.map_cons, String.join_cons, ← inductionHypothesis]
      rfl

theorem diagnostics_concat (reports : List Report) :
    (concat reports).diagnostics = String.join (reports.map diagnostics) := by
  induction reports with
  | nil => rfl
  | cons first others inductionHypothesis =>
      rw [List.map_cons, String.join_cons, ← inductionHypothesis]
      rfl

/-- Reports in turn succeed exactly if each of them does. -/
theorem succeeded_concat_iff (reports : List Report) :
    (concat reports).succeeded = true ↔
      ∀ report ∈ reports, report.succeeded = true := by
  induction reports with
  | nil => simp [concat, empty]
  | cons first others inductionHypothesis =>
      rw [List.forall_mem_cons, ← inductionHypothesis]
      exact Bool.and_eq_true_iff

@[simp] theorem concat_singleton (report : Report) :
    concat [report] = report := by
  obtain ⟨output, diagnostics, succeeded⟩ := report
  change mk (output ++ "") (diagnostics ++ "") (succeeded && true) = _
  rw [String.append_empty, String.append_empty, Bool.and_true]

end Report

/-! ## Sources -/

namespace Inputs

/-- The source with a given path, if no other source is read before it. -/
def source (inputs : Inputs) (path : String) : Except ReadFailure String :=
  if path = "-" then
    decode inputs.standardInput
  else
    match inputs.file path with
    | some bytes => decode bytes
    | none => .error .missing

theorem read_cons_of_ne
    (inputs : Inputs)
    {path : String}
    (notInput : path ≠ "-")
    (others : List String) :
    inputs.read (path :: others) =
      (path, inputs.source path) :: inputs.read others := by
  cases found : inputs.file path with
  | none => simp [read, source, notInput, found]
  | some bytes => simp [read, source, notInput, found]

/-- Standard input is empty once it was read. -/
theorem read_cons_input (inputs : Inputs) (others : List String) :
    inputs.read ("-" :: others) =
      ("-", inputs.source "-") ::
        read ⟨ByteArray.empty, inputs.file⟩ others := by
  rw [read, source, if_pos rfl, if_pos rfl]

/-- Without `-` among the paths, standard input does not matter. -/
theorem read_eq_map_of_not_mem
    (inputs : Inputs)
    (standardInput : ByteArray)
    {paths : List String}
    (absent : "-" ∉ paths) :
    read ⟨standardInput, inputs.file⟩ paths =
      paths.map fun path => (path, inputs.source path) := by
  induction paths with
  | nil => rfl
  | cons path others inductionHypothesis =>
      rw [List.mem_cons, not_or] at absent
      have notInput : path ≠ "-" := fun path_eq => absent.1 path_eq.symm
      have source_eq :
          source ⟨standardInput, inputs.file⟩ path = inputs.source path := by
        simp [source, notInput]
      rw [read_cons_of_ne _ notInput, source_eq, inductionHypothesis absent.2,
        List.map_cons]

/-- Sources do not affect one another if `-` is among them at most once. -/
theorem read_eq_map
    (inputs : Inputs)
    {paths : List String}
    (once : paths.count "-" ≤ 1) :
    inputs.read paths = paths.map fun path => (path, inputs.source path) := by
  induction paths with
  | nil => rfl
  | cons path others inductionHypothesis =>
      rw [List.map_cons]
      by_cases isInput : path = "-"
      · subst isInput
        rw [List.count_cons_self] at once
        have absent : "-" ∉ others := List.count_eq_zero.mp (by omega)
        rw [read_cons_input, read_eq_map_of_not_mem inputs _ absent]
      · rw [List.count_cons_of_ne isInput] at once
        rw [read_cons_of_ne _ isInput, inductionHypothesis once]

end Inputs

/-! ## Runs -/

/-- A run with a report exits with 0 exactly if the report is a success. -/
theorem Completion.exitCode_ofReport_eq_zero_iff (report : Report) :
    (ofReport report).exitCode = 0 ↔ report.succeeded = true := by
  unfold ofReport
  cases report.succeeded <;> simp

/-- A run with a report that does not exit with 0 exits with 1. -/
theorem Completion.exitCode_ofReport (report : Report) :
    (ofReport report).exitCode = 0 ∨ (ofReport report).exitCode = 1 := by
  unfold ofReport
  cases report.succeeded <;> simp

section

variable
  {name : String}
  {command : Command}
  {paths : List String}

/-- A run reports on its sources one after the other. -/
theorem run_eq_concat
    (isName : Command.ofName? name = some command)
    (nonempty : paths ≠ [])
    (once : paths.count "-" ≤ 1)
    (inputs : Inputs) :
    run (name :: paths) inputs =
      .ofReport
        (.concat
          (paths.map fun path =>
            command.onSource path (inputs.source path))) := by
  have noHelp : ¬(name = "--help" ∨ name = "-h") := by
    rintro (rfl | rfl) <;> cases isName
  have invocation_eq :
      Invocation.ofArguments (name :: paths) = .ok ⟨command, paths⟩ := by
    simp [Invocation.ofArguments, noHelp, isName, nonempty]
  have report_eq :
      Invocation.run ⟨command, paths⟩ inputs =
        .concat
          (paths.map fun path =>
            command.onSource path (inputs.source path)) := by
    simp only [Invocation.run, inputs.read_eq_map once, List.map_map,
      Function.comp_def]
  rw [run, invocation_eq, ← report_eq]

/-- A run on one source reports on that source. -/
theorem run_singleton
    (isName : Command.ofName? name = some command)
    (inputs : Inputs)
    (path : String) :
    run [name, path] inputs =
      .ofReport (command.onSource path (inputs.source path)) := by
  have once : [path].count "-" ≤ 1 := List.count_le_length
  rw [run_eq_concat isName (by simp) once, List.map_singleton,
    Report.concat_singleton]

/-- What a run prints is what the runs on each of its sources print. -/
theorem run_eq_join
    (isName : Command.ofName? name = some command)
    (nonempty : paths ≠ [])
    (once : paths.count "-" ≤ 1)
    (inputs : Inputs) :
    (run (name :: paths) inputs).output =
        String.join (paths.map fun path => (run [name, path] inputs).output) ∧
      (run (name :: paths) inputs).diagnostics =
        String.join
          (paths.map fun path => (run [name, path] inputs).diagnostics) := by
  simp only [run_eq_concat isName nonempty once, run_singleton isName]
  let reports : List Report :=
    paths.map fun path => command.onSource path (inputs.source path)
  have output_eq := Report.output_concat reports
  have diagnostics_eq := Report.diagnostics_concat reports
  rw [List.map_map] at output_eq diagnostics_eq
  exact ⟨output_eq, diagnostics_eq⟩

/-- A run with sources exits with 0 or with 1. -/
theorem exitCode_run
    (isName : Command.ofName? name = some command)
    (nonempty : paths ≠ [])
    (once : paths.count "-" ≤ 1)
    (inputs : Inputs) :
    (run (name :: paths) inputs).exitCode = 0 ∨
      (run (name :: paths) inputs).exitCode = 1 := by
  rw [run_eq_concat isName nonempty once]
  exact Completion.exitCode_ofReport _

/-- A run exits with 0 exactly if the runs on each of its sources do. -/
theorem exitCode_run_eq_zero_iff
    (isName : Command.ofName? name = some command)
    (nonempty : paths ≠ [])
    (once : paths.count "-" ≤ 1)
    (inputs : Inputs) :
    (run (name :: paths) inputs).exitCode = 0 ↔
      ∀ path ∈ paths, (run [name, path] inputs).exitCode = 0 := by
  simp only [run_eq_concat isName nonempty once, run_singleton isName,
    Completion.exitCode_ofReport_eq_zero_iff, Report.succeeded_concat_iff,
    List.forall_mem_map]

/-- A run exits with 1 exactly if the run on one of its sources does. -/
theorem exitCode_run_eq_one_iff
    (isName : Command.ofName? name = some command)
    (nonempty : paths ≠ [])
    (once : paths.count "-" ≤ 1)
    (inputs : Inputs) :
    (run (name :: paths) inputs).exitCode = 1 ↔
      ∃ path ∈ paths, (run [name, path] inputs).exitCode = 1 := by
  have zero_iff := exitCode_run_eq_zero_iff isName nonempty once inputs
  have single (path : String) :
      (run [name, path] inputs).exitCode = 0 ∨
        (run [name, path] inputs).exitCode = 1 := by
    rw [run_singleton isName]
    exact Completion.exitCode_ofReport _
  rcases exitCode_run isName nonempty once inputs with isZero | isOne
  · refine iff_of_false (by omega) ?_
    rintro ⟨path, member, failed⟩
    have succeeded := zero_iff.mp isZero path member
    omega
  · refine iff_of_true isOne ?_
    refine Classical.byContradiction fun noFailure => ?_
    have allZero : (run (name :: paths) inputs).exitCode = 0 := by
      apply zero_iff.mpr
      intro path member
      refine (single path).resolve_right fun failed => ?_
      exact noFailure ⟨path, member, failed⟩
    omega

end

end ConditionalAssignment
