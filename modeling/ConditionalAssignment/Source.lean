import ConditionalAssignment.Bracket.Balance
import ConditionalAssignment.Statement.Reading
import ConditionalAssignment.Tree.Lowering

/-!
# Reading source text

A program is read from a text in three steps: its brackets are checked, the
text is split into tokens, and the tokens are read.  The first step that fails
gives the error.  The steps can also be taken one at a time: a tree is read
from given tokens, or from items that may hold lexical errors.

Each reader that reports events comes first, and its plain form is its outcome.
-/

namespace ConditionalAssignment

/-- An error of one of the three steps. -/
inductive SourceError where
  /-- The brackets of the text are not balanced. -/
  | brackets (error : BracketError)
  /-- The text holds stretches that make no token. -/
  | lexical (errors : List LexError)
  /-- The tokens do not read as a program. -/
  | grammar (error : ParseError)
deriving DecidableEq

/-- The text of a source error. -/
def SourceError.message : SourceError → String
  | brackets error => error.message
  | lexical errors => LexError.report errors
  | grammar error => error.message

/-! ## Tokens -/

/-- Split a text into tokens and report every lexical error. -/
def Token.trace (source : String) : Traced (List LexError) (List Token) :=
  let items := LexItem.ofSource source
  ⟨(LexItem.errors items).map .skippedInput, LexItem.collect items⟩

/-! ## Programs -/

/-- Read a program from tokens and report its statements. -/
def Program.traceTokens (tokens : List Token) : Traced ParseError Program :=
  Program.mk <$> Statement.readRange .required tokens

/-- Read a program from tokens. -/
def Program.ofTokens (tokens : List Token) : Except ParseError Program :=
  (Program.traceTokens tokens).outcome

/-- Read a program from a text and report what is met on the way. -/
def Program.traceSource (source : String) : Traced SourceError Program := do
  Traced.ofExcept ((Balance.check source).mapError .brackets)
  let tokens ← (Token.trace source).mapError .lexical
  (Program.traceTokens tokens).mapError .grammar

/-- Read a program from a text. -/
def Program.ofSource (source : String) : Except SourceError Program :=
  (Program.traceSource source).outcome

/-! ## Trees -/

/-- Read a tree from tokens. -/
def Tree.ofTokens (tokens : List Token) : Except ParseError Tree :=
  (Program.ofTokens tokens).map Program.tree

/-- Read a tree from items, unless one of them is an error. -/
def Tree.traceItems (items : List LexItem) : Traced ParseError Tree :=
  match LexItem.collect items with
  | .ok tokens => Program.tree <$> Program.traceTokens tokens
  | .error errors => do
      Traced.report (.refusedAnalysis errors.length)
      Traced.fail ⟨.lexical errors, errors.head?.map LexError.position⟩

/-- Read a tree from items, unless one of them is an error. -/
def Tree.ofItems (items : List LexItem) : Except ParseError Tree :=
  (Tree.traceItems items).outcome

/-- Read a tree from the items of a text and report what is met on the way.
The brackets are not checked beforehand. -/
def Tree.traceUnchecked (source : String) : Traced ParseError Tree :=
  let analysis := Tree.traceItems (LexItem.ofSource source)
  ⟨(Token.trace source).events ++ analysis.events, analysis.outcome⟩

/-- Read a tree from a text and report what is met on the way. -/
def Tree.traceSource (source : String) : Traced SourceError Tree :=
  Program.tree <$> Program.traceSource source

/-- Read a tree from a text. -/
def Tree.ofSource (source : String) : Except SourceError Tree :=
  (Tree.traceSource source).outcome

/-! ## The plain readers -/

/-- Tokens are read from a text as its report says. -/
@[simp] theorem Token.outcome_trace (source : String) :
    (Token.trace source).outcome = Token.ofSource source :=
  rfl

/-- The three steps of reading a program, without their events. -/
theorem Program.ofSource_eq (source : String) :
    Program.ofSource source = (do
      (Balance.check source).mapError SourceError.brackets
      let tokens ← (Token.ofSource source).mapError SourceError.lexical
      (Program.ofTokens tokens).mapError SourceError.grammar) := by
  unfold Program.ofSource Program.traceSource Program.ofTokens
  simp only [Traced.outcome_bind, Traced.outcome_ofExcept,
    Traced.outcome_mapError, Token.outcome_trace]

/-- A tree is read from a text by lowering its program. -/
theorem Tree.ofSource_eq (source : String) :
    Tree.ofSource source = (Program.ofSource source).map Program.tree :=
  rfl

/-- A tree is read from items by lowering their program, unless one of them is
an error. -/
theorem Tree.ofItems_eq (items : List LexItem) :
    Tree.ofItems items =
      match LexItem.collect items with
      | .ok tokens => Tree.ofTokens tokens
      | .error errors =>
          .error ⟨.lexical errors, errors.head?.map LexError.position⟩ := by
  unfold Tree.ofItems Tree.traceItems
  split <;> rfl

end ConditionalAssignment
