import ConditionalAssignment.Proofs.Command.Run
import ConditionalAssignment.Proofs.Command.Verdict
import ConditionalAssignment.Proofs.Source.Lines
import ConditionalAssignment.Proofs.Source.RoundTrip
import Mathlib

/-!
# The commands agree

Three of the commands read a source, each in a way of its own: one checks the
brackets and then reads the items, the others read the text in one step.  They
fail for the same sources.  Where they do not, the counts that the first one
prints are the numbers of lines that the others print.
-/

namespace ConditionalAssignment

namespace Command

/-! ## Reports on a text -/

variable {text : String} {program : Program}

theorem onText_check
    (read : Program.ofSource text = .ok program)
    (path : String) :
    check.onText path text =
      ⟨"", verdict path program.statements.length program.tree.size, true⟩ := by
  obtain ⟨tokens, lexed, tokensRead⟩ := Program.ofSource_eq_ok_iff.mp read
  have balanced := Program.check_of_ofTokens lexed tokensRead
  have itemsRead :
      Tree.ofItems (LexItem.ofSource text) = .ok program.tree :=
    Tree.ofItems_eq_ok_iff.mpr ⟨program, read, rfl⟩
  have statements_eq :
      program.tree.children.length = program.statements.length :=
    List.length_map _
  have brackets_eq : reportBrackets path text = .empty := by
    rw [reportBrackets, balanced]
  have grammar_eq :
      reportGrammar path text =
        ⟨"", verdict path program.statements.length program.tree.size,
          true⟩ := by
    simp only [reportGrammar, itemsRead, statements_eq]
    rfl
  rw [onText, brackets_eq, grammar_eq]
  change Report.mk ("" ++ "") ("" ++ _) (true && true) = _
  rw [String.empty_append, String.empty_append]
  rfl

theorem onText_tree
    (read : Program.ofSource text = .ok program)
    (path : String) :
    tree.onText path text = .ofOutput program.tree.outline := by
  unfold onText
  rw [Tree.ofSource_eq, read]
  rfl

/-- The tokens of a text that is read are listed without a failure. -/
theorem succeeded_tokens
    (read : Program.ofSource text = .ok program)
    (path : String) :
    (tokens.onText path text).succeeded = true := by
  obtain ⟨found, lexed, _⟩ := Program.ofSource_eq_ok_iff.mp read
  rw [onText, Report.succeeded_concat_iff, LexItem.collect_eq_ok_iff.mp lexed,
    List.forall_mem_map, List.forall_mem_map]
  intro token _
  rfl

/-- The check of a text that is not read ends in a complaint. -/
theorem exists_complaint_of_check
    (unread : ∀ program, Program.ofSource text ≠ .ok program)
    (path : String) :
    ∃ front message,
      IsComplaint message ∧
        check.onText path text =
          front ++ Report.ofFailure path message := by
  cases items_eq : Tree.ofItems (LexItem.ofSource text) with
  | ok tree =>
      obtain ⟨program, read, _⟩ := Tree.ofItems_eq_ok_iff.mp items_eq
      exact absurd read (unread program)
  | error error =>
      refine ⟨reportBrackets path text, error.message,
        Tree.isComplaint_of_ofItems items_eq, ?_⟩
      rw [onText, reportGrammar, items_eq]

/-- A text is checked, drawn or laid out without a failure exactly if it reads
as a program. -/
theorem succeeded_onText_iff
    {command : Command}
    (isReader : command ≠ tokens)
    (path text : String) :
    (command.onText path text).succeeded = true ↔
      ∃ program, Program.ofSource text = .ok program := by
  cases read : Program.ofSource text with
  | ok program =>
      refine iff_of_true ?_ ⟨program, rfl⟩
      cases command with
      | check => rw [onText_check read]
      | tokens => exact absurd rfl isReader
      | tree =>
          rw [onText_tree read]
          rfl
      | layout =>
          rw [onText_layout read]
          rfl
  | error error =>
      have unread (program : Program) :
          Program.ofSource text ≠ .ok program := by
        rw [read]
        simp
      refine iff_of_false ?_ (by simp)
      cases command with
      | check =>
          obtain ⟨front, message, _, report_eq⟩ :=
            exists_complaint_of_check unread path
          rw [report_eq]
          change (front.succeeded && false) ≠ true
          simp
      | tokens => exact absurd rfl isReader
      | tree =>
          rw [onText, Tree.ofSource_eq, read]
          exact Bool.false_ne_true
      | layout =>
          rw [onText, read]
          exact Bool.false_ne_true

/-! ## Reports on a source -/

variable {source : Except ReadFailure String}

/-- The source can be read, and its text reads as a program. -/
def Reads (source : Except ReadFailure String) (program : Program) : Prop :=
  ∃ text, source = .ok text ∧ Program.ofSource text = .ok program

theorem succeeded_onSource_iff
    {command : Command}
    (isReader : command ≠ tokens)
    (path : String) :
    (command.onSource path source).succeeded = true ↔
      ∃ program, Reads source program := by
  cases source with
  | error failure => simp [onSource, Report.ofFailure, Reads]
  | ok text =>
      rw [onSource, succeeded_onText_iff isReader]
      simp [Reads]

theorem succeeded_onSource_tokens
    (reads : Reads source program)
    (path : String) :
    (tokens.onSource path source).succeeded = true := by
  obtain ⟨text, rfl, read⟩ := reads
  exact succeeded_tokens read path

/-- The check of a source that is read prints its verdict alone, which counts
the lines of its layout and of its outline. -/
theorem onSource_check
    (reads : Reads source program)
    (path : String) :
    (check.onSource path source).diagnostics =
      verdict path
        (lineCount (layout.onSource path source).output)
        (lineCount (tree.onSource path source).output) := by
  obtain ⟨text, rfl, read⟩ := reads
  have spelled := (Program.isCanonical_of_ofSource read).spelled
  have statements_eq := Program.lineCount_layout spelled
  have nodes_eq := Program.lineCount_outline spelled
  simp only [onSource, onText_check read, onText_layout read, onText_tree read,
    Report.ofOutput, statements_eq, nodes_eq]

/-- What is printed on a source that is not read never ends in a verdict. -/
theorem diagnostics_check_ne
    (unread : ∀ program, ¬Reads source program)
    (path before : String)
    (statements nodes : Nat) :
    (check.onSource path source).diagnostics ≠
      before ++ verdict path statements nodes := by
  cases source with
  | error failure =>
      have isOnly :=
        complaint_ne_verdict failure.isComplaint_message "" path before
          statements nodes
      rwa [String.empty_append] at isOnly
  | ok text =>
      have textUnread (program : Program) :
          Program.ofSource text ≠ .ok program :=
        fun read => unread program ⟨text, rfl, read⟩
      obtain ⟨front, message, isComplaint, report_eq⟩ :=
        exists_complaint_of_check textUnread path
      rw [onSource, report_eq]
      exact complaint_ne_verdict isComplaint front.diagnostics path before
        statements nodes

end Command

/-! ## Runs -/

section

variable {name : String} {command : Command}

/-- A run that reads its source exits with 0 exactly if that can be read. -/
theorem exitCode_run_singleton_iff
    (isName : Command.ofName? name = some command)
    (isReader : command ≠ .tokens)
    (inputs : Inputs)
    (path : String) :
    (run [name, path] inputs).exitCode = 0 ↔
      ∃ program, Command.Reads (inputs.source path) program := by
  rw [run_singleton isName, Completion.exitCode_ofReport_eq_zero_iff]
  exact Command.succeeded_onSource_iff isReader path

/-- Runs that read their sources exit with the same code. -/
theorem exitCode_run_eq
    {other : String}
    {otherCommand : Command}
    (isName : Command.ofName? name = some command)
    (isReader : command ≠ .tokens)
    (isOther : Command.ofName? other = some otherCommand)
    (otherReader : otherCommand ≠ .tokens)
    {paths : List String}
    (nonempty : paths ≠ [])
    (once : paths.count "-" ≤ 1)
    (inputs : Inputs) :
    (run (name :: paths) inputs).exitCode =
      (run (other :: paths) inputs).exitCode := by
  have same_iff :
      (run (name :: paths) inputs).exitCode = 0 ↔
        (run (other :: paths) inputs).exitCode = 0 := by
    simp only [exitCode_run_eq_zero_iff isName nonempty once,
      exitCode_run_eq_zero_iff isOther nonempty once,
      exitCode_run_singleton_iff isName isReader,
      exitCode_run_singleton_iff isOther otherReader]
  have codes := exitCode_run isName nonempty once inputs
  have otherCodes := exitCode_run isOther nonempty once inputs
  omega

end

/-- The tokens of sources that are read are listed without a failure. -/
theorem exitCode_run_tokens
    {paths : List String}
    (nonempty : paths ≠ [])
    (once : paths.count "-" ≤ 1)
    (inputs : Inputs)
    (checked : (run ("check" :: paths) inputs).exitCode = 0) :
    (run ("tokens" :: paths) inputs).exitCode = 0 := by
  have isCheck : Command.ofName? "check" = some .check := rfl
  have isTokens : Command.ofName? "tokens" = some .tokens := rfl
  rw [exitCode_run_eq_zero_iff isCheck nonempty once] at checked
  rw [exitCode_run_eq_zero_iff isTokens nonempty once]
  intro path member
  obtain ⟨program, reads⟩ :=
    (exitCode_run_singleton_iff isCheck (by simp) inputs path).mp
      (checked path member)
  rw [run_singleton isTokens, Completion.exitCode_ofReport_eq_zero_iff]
  exact Command.succeeded_onSource_tokens reads path

/-- A check that succeeds prints the number of lines that the other commands
print. -/
theorem diagnostics_run_check
    {inputs : Inputs}
    {path : String}
    (checked : (run ["check", path] inputs).exitCode = 0) :
    (run ["check", path] inputs).diagnostics =
      Command.verdict path (lineCount (run ["fmt", path] inputs).output)
        (lineCount (run ["tree", path] inputs).output) := by
  have isCheck : Command.ofName? "check" = some .check := rfl
  have isTree : Command.ofName? "tree" = some .tree := rfl
  have isLayout : Command.ofName? "fmt" = some .layout := rfl
  obtain ⟨program, reads⟩ :=
    (exitCode_run_singleton_iff isCheck (by simp) inputs path).mp checked
  rw [run_singleton isCheck, run_singleton isTree, run_singleton isLayout]
  exact Command.onSource_check reads path

/-- Only a check that succeeds ends in a verdict. -/
theorem exitCode_of_diagnostics_run_check
    {inputs : Inputs}
    {path before : String}
    {statements nodes : Nat}
    (printed :
      (run ["check", path] inputs).diagnostics =
        before ++ Command.verdict path statements nodes) :
    (run ["check", path] inputs).exitCode = 0 := by
  have isCheck : Command.ofName? "check" = some .check := rfl
  rw [exitCode_run_singleton_iff isCheck (by simp)]
  refine Classical.byContradiction fun unread => ?_
  rw [run_singleton isCheck] at printed
  exact Command.diagnostics_check_ne (not_exists.mp unread) path before
    statements nodes printed

/-- The commands agree on every list of sources among which `-` occurs at most
once, and what they leave behind is put together from the single sources. -/
theorem run_agrees
    {paths : List String}
    (nonempty : paths ≠ [])
    (once : paths.count "-" ≤ 1)
    (inputs : Inputs) :
    ((run ("tree" :: paths) inputs).exitCode =
          (run ("check" :: paths) inputs).exitCode ∧
        (run ("fmt" :: paths) inputs).exitCode =
          (run ("check" :: paths) inputs).exitCode ∧
        ((run ("check" :: paths) inputs).exitCode = 0 →
          (run ("tokens" :: paths) inputs).exitCode = 0)) ∧
      (∀ path,
        ((run ["check", path] inputs).exitCode = 0 →
          (run ["check", path] inputs).diagnostics =
            Command.verdict path (lineCount (run ["fmt", path] inputs).output)
              (lineCount (run ["tree", path] inputs).output)) ∧
        ∀ before statements nodes,
          (run ["check", path] inputs).diagnostics =
              before ++ Command.verdict path statements nodes →
            before = "" ∧
              (run ["check", path] inputs).exitCode = 0 ∧
              statements = lineCount (run ["fmt", path] inputs).output ∧
              nodes = lineCount (run ["tree", path] inputs).output) ∧
      ∀ name ∈ ["check", "tokens", "tree", "fmt"],
        ((run (name :: paths) inputs).exitCode = 0 ∨
            (run (name :: paths) inputs).exitCode = 1) ∧
          ((run (name :: paths) inputs).exitCode = 1 ↔
            ∃ path ∈ paths, (run [name, path] inputs).exitCode = 1) ∧
          (run (name :: paths) inputs).output =
            String.join
              (paths.map fun path => (run [name, path] inputs).output) ∧
          (run (name :: paths) inputs).diagnostics =
            String.join
              (paths.map fun path =>
                (run [name, path] inputs).diagnostics) := by
  have isCheck : Command.ofName? "check" = some .check := rfl
  have isTree : Command.ofName? "tree" = some .tree := rfl
  have isLayout : Command.ofName? "fmt" = some .layout := rfl
  refine ⟨⟨?_, ?_, ?_⟩, ?_, ?_⟩
  · exact exitCode_run_eq isTree (by simp) isCheck (by simp) nonempty once
      inputs
  · exact exitCode_run_eq isLayout (by simp) isCheck (by simp) nonempty once
      inputs
  · exact exitCode_run_tokens nonempty once inputs
  · intro path
    refine ⟨diagnostics_run_check, ?_⟩
    intro before statements nodes printed
    have checked := exitCode_of_diagnostics_run_check printed
    rw [diagnostics_run_check checked] at printed
    obtain ⟨before_eq, statements_eq, nodes_eq⟩ :=
      Command.verdict_inj printed.symm
    exact ⟨before_eq, checked, statements_eq, nodes_eq⟩
  · intro name member
    obtain ⟨command, isName⟩ :
        ∃ command, Command.ofName? name = some command := by
      simp only [List.mem_cons, List.not_mem_nil, or_false] at member
      rcases member with rfl | rfl | rfl | rfl <;> exact ⟨_, rfl⟩
    obtain ⟨output_eq, diagnostics_eq⟩ :=
      run_eq_join isName nonempty once inputs
    exact ⟨exitCode_run isName nonempty once inputs,
      exitCode_run_eq_one_iff isName nonempty once inputs, output_eq,
      diagnostics_eq⟩

/-- A file and standard input are read, and the lines of the first are
counted. -/
theorem run_agrees_two_sources :
    ∃ inputs : Inputs,
      ["program", "-"] ≠ [] ∧
        ["program", "-"].count "-" ≤ 1 ∧
        run ["check", "program", "-"] inputs =
          ⟨0, "",
            "program: valid (2 statement(s), 26 node(s))\n" ++
              "-: valid (1 statement(s), 6 node(s))\n"⟩ ∧
        (run ["tree", "program", "-"] inputs).exitCode = 0 ∧
        (run ["fmt", "program", "-"] inputs).exitCode = 0 ∧
        (run ["tokens", "program", "-"] inputs).exitCode = 0 ∧
        lineCount (run ["fmt", "program"] inputs).output = 2 ∧
        lineCount (run ["tree", "program"] inputs).output = 26 := by
  let inputs : Inputs :=
    ⟨"z := 3;".toUTF8, fun path =>
      if path = "program" then
        some "if a<b then x:=1; else y:=2; y := (x);".toUTF8
      else
        none⟩
  have checked :
      run ["check", "program", "-"] inputs =
        ⟨0, "",
          "program: valid (2 statement(s), 26 node(s))\n" ++
            "-: valid (1 statement(s), 6 node(s))\n"⟩ := by
    cbv
  have printed :
      (run ["check", "program"] inputs).diagnostics =
        "" ++ Command.verdict "program" 2 26 := by
    cbv
  have nonempty : ["program", "-"] ≠ [] := by simp
  have once : ["program", "-"].count "-" ≤ 1 := by decide
  obtain ⟨⟨tree_eq, layout_eq, tokensExit⟩, counts, _⟩ :=
    run_agrees nonempty once inputs
  obtain ⟨_, _, statements_eq, nodes_eq⟩ :=
    (counts "program").2 "" 2 26 printed
  have checkExit : (run ["check", "program", "-"] inputs).exitCode = 0 := by
    rw [checked]
  exact ⟨inputs, nonempty, once, checked, tree_eq.trans checkExit,
    layout_eq.trans checkExit, tokensExit checkExit, statements_eq.symm,
    nodes_eq.symm⟩

end ConditionalAssignment
