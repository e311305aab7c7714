import ConditionalAssignment.Program.Layout
import ConditionalAssignment.Source
import ConditionalAssignment.Tree.Outline

/-!
# The command

A command works on each of its sources in turn and reports on every one, also
after a failure.  What it prints is a value: the report on several sources is
the concatenation of the reports on each, and it succeeds if all of them do.
-/

namespace ConditionalAssignment

/-! ## Reports -/

/-- What a command prints, and whether it succeeded. -/
structure Report where
  /-- The text for standard output. -/
  output : String
  /-- The text for standard error. -/
  diagnostics : String
  /-- Nothing failed. -/
  succeeded : Bool
deriving DecidableEq

namespace Report

/-- The report that prints nothing. -/
def empty : Report :=
  ⟨"", "", true⟩

/-- One report after another. -/
def append (first second : Report) : Report :=
  ⟨first.output ++ second.output, first.diagnostics ++ second.diagnostics,
    first.succeeded && second.succeeded⟩

instance : Append Report :=
  ⟨append⟩

/-- The report of a success with some output. -/
def ofOutput (output : String) : Report :=
  ⟨output, "", true⟩

/-- The report of a failure at a source. -/
def ofFailure (path message : String) : Report :=
  ⟨"", s!"{path}: {message}\n", false⟩

/-- Several reports in turn. -/
def concat (reports : List Report) : Report :=
  reports.foldr append empty

end Report

/-! ## Commands on one source -/

/-- What is done with each source. -/
inductive Command where
  /-- Check the brackets and the grammar. -/
  | check
  /-- List the tokens and the lexical errors. -/
  | tokens
  /-- Draw the tree. -/
  | tree
  /-- Write the canonical layout. -/
  | layout
deriving DecidableEq

/-- A reason why a source cannot be read. -/
inductive ReadFailure where
  /-- There is no such source. -/
  | missing
  /-- The bytes of the source are not UTF-8. -/
  | notText
deriving DecidableEq

/-- The text of a read failure. -/
def ReadFailure.message : ReadFailure → String
  | missing => "No such file or directory (os error 2)"
  | notText => "stream did not contain valid UTF-8"

/-- The line that lists a token. -/
def Token.listing (token : Token) : String :=
  s!"{token.position.offset}\t{token.kind.describe}\t{token.text}\n"

namespace Command

/-- The command with a given name. -/
def ofName? : String → Option Command
  | "check" => some check
  | "tokens" => some tokens
  | "tree" => some tree
  | "fmt" => some layout
  | _ => none

/-- Report on the brackets of a source. -/
def reportBrackets (path text : String) : Report :=
  match Balance.check text with
  | .ok () => .empty
  | .error error => .ofFailure path error.message

/-- Report on the grammar of a source. -/
def reportGrammar (path text : String) : Report :=
  match Tree.ofItems (LexItem.ofSource text) with
  | .ok root =>
      let statements := root.children.length
      let nodes := root.size
      ⟨"", s!"{path}: valid ({statements} statement(s), {nodes} node(s))\n",
        true⟩
  | .error error => .ofFailure path error.message

/-- Report one item of a source. -/
def reportItem (path : String) : LexItem → Report
  | .ok token => .ofOutput token.listing
  | .error error => .ofFailure path error.message

/-- Run a command on the text of a source. -/
def onText (command : Command) (path text : String) : Report :=
  match command with
  | check => reportBrackets path text ++ reportGrammar path text
  | tokens => .concat ((LexItem.ofSource text).map (reportItem path))
  | tree =>
      match Tree.ofSource text with
      | .ok root => .ofOutput root.outline
      | .error error => .ofFailure path error.message
  | layout =>
      match Program.ofSource text with
      | .ok program => .ofOutput program.layout
      | .error error => .ofFailure path error.message

/-- Run a command on a source that may not be readable. -/
def onSource
    (command : Command)
    (path : String)
    (source : Except ReadFailure String) : Report :=
  match source with
  | .ok text => command.onText path text
  | .error failure => .ofFailure path failure.message

end Command

/-! ## Sources -/

/-- The bytes that a command can read. -/
structure Inputs where
  /-- What is left of standard input. -/
  standardInput : ByteArray
  /-- The bytes of the file with a given path, if there is one. -/
  file : String → Option ByteArray

namespace Inputs

/-- Read bytes as text. -/
def decode (bytes : ByteArray) : Except ReadFailure String :=
  match String.fromUTF8? bytes with
  | some text => .ok text
  | none => .error .notText

/-- Read all sources in turn.  The path `-` takes all that is left of standard
input, even if that is no text. -/
def read
    (inputs : Inputs) :
    List String → List (String × Except ReadFailure String)
  | [] => []
  | path :: paths =>
      if path = "-" then
        (path, decode inputs.standardInput) ::
          read ⟨ByteArray.empty, inputs.file⟩ paths
      else
        let source :=
          match inputs.file path with
          | some bytes => decode bytes
          | none => .error .missing
        (path, source) :: read inputs paths

end Inputs

/-! ## Runs -/

/-- A command and the paths of its sources. -/
structure Invocation where
  /-- What is done with each source. -/
  command : Command
  /-- Where the sources are. -/
  paths : List String

/-- How the command is used. -/
def usage : String :=
  String.join
    ["Usage: condlang <command> [files...]\n",
      "\n",
      "Commands:\n",
      "  check   Check brackets and syntax of source file(s)\n",
      "  tokens  Print the token stream, lexical errors inline\n",
      "  tree    Parse and print the syntax tree\n",
      "  fmt     Parse and print canonical source\n",
      "\n",
      "Use - to read from standard input.\n",
      "Set RUST_LOG=debug to trace statement classification.\n",
      "\n",
      "Examples:\n",
      "  condlang check program.txt\n",
      "  echo 'x := a + 1;' | condlang tree -\n"]

namespace Invocation

/-- The invocation that arguments ask for, or the text that explains why they
ask for none. -/
def ofArguments : List String → Except String Invocation
  | [] => .error usage
  | name :: paths =>
      if name = "--help" ∨ name = "-h" then
        .error usage
      else
        match Command.ofName? name with
        | none => .error s!"Unknown command: {name}\n"
        | some command =>
            if paths.isEmpty then
              .error "Error: no files specified\n"
            else
              .ok ⟨command, paths⟩

/-- The paths of the sources that arguments name. -/
def pathsOf (arguments : List String) : List String :=
  match ofArguments arguments with
  | .ok invocation => invocation.paths
  | .error _ => []

/-- Run a command on all of its sources. -/
def run (invocation : Invocation) (inputs : Inputs) : Report :=
  .concat
    ((inputs.read invocation.paths).map fun (path, source) =>
      invocation.command.onSource path source)

end Invocation

/-- What a run leaves behind. -/
structure Completion where
  /-- The exit code: 0 for success, 1 for a failure, 2 for wrong use. -/
  exitCode : Nat
  /-- The text on standard output. -/
  output : String
  /-- The text on standard error. -/
  diagnostics : String
deriving DecidableEq

namespace Completion

/-- The completion of a run with a report. -/
def ofReport (report : Report) : Completion :=
  ⟨if report.succeeded then 0 else 1, report.output, report.diagnostics⟩

/-- The completion of a run that was used wrongly. -/
def ofMisuse (explanation : String) : Completion :=
  ⟨2, "", explanation⟩

end Completion

/-- Run the command that arguments ask for. -/
def run (arguments : List String) (inputs : Inputs) : Completion :=
  match Invocation.ofArguments arguments with
  | .ok invocation => .ofReport (invocation.run inputs)
  | .error explanation => .ofMisuse explanation

end ConditionalAssignment
