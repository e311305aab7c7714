import ConditionalAssignment.Proofs.Grammar.Passage
import ConditionalAssignment.Proofs.Lexing.Tiling
import ConditionalAssignment.Proofs.Source.Reading
import Mathlib

/-!
# What reading a text reports

Reading the items of a text reports one thing for each statement of the program,
at every depth of nesting, in the order in which the statements start.  A text
with lexical errors has no program.  Then each error is reported in its place,
and at the end that there are so many of them.
-/

namespace ConditionalAssignment

/-! ## Order of places -/

/-- The passages of the tokens of a text start at growing offsets. -/
theorem Statement.HasPassages.pairwise_offset
    {source : String}
    {tokens : List Token}
    {termination : Termination}
    {statements : List Statement}
    {passages : List Passage}
    (has : HasPassages termination tokens statements passages)
    (lexed : Token.ofSource source = .ok tokens) :
    passages.Pairwise fun left right =>
      left.first.position.offset < right.first.position.offset := by
  have ordered := (Token.pairwise_offset lexed).sublist has.sublist_first
  rwa [List.pairwise_map] at ordered

/-- The lexical errors of a text stand at growing offsets. -/
theorem LexItem.pairwise_offset_errors (source : String) :
    (errors (ofSource source)).Pairwise fun left right =>
      left.position.offset < right.position.offset := by
  unfold errors
  rw [List.pairwise_filterMap]
  refine (pairwise_offset source).imp ?_
  rintro left right before leftError left_eq rightError right_eq
  cases left with
  | ok token => cases left_eq
  | error found =>
      cases right with
      | ok token => cases right_eq
      | error behind =>
          cases left_eq
          cases right_eq
          exact before

/-! ## Texts with a program -/

/-- Tokens that are read report the passages of their program. -/
theorem Program.exists_passages
    {tokens : List Token}
    {program : Program}
    (read : Program.ofTokens tokens = .ok program) :
    ∃ passages,
      Statement.HasPassages .required tokens program.statements passages ∧
        (Program.traceTokens tokens).events = passages.map Passage.event := by
  rw [ofTokens_eq, map_eq_ok_iff] at read
  obtain ⟨statements, read, rfl⟩ := read
  exact Statement.reportsPassages_of_outcome read

namespace Tree

theorem events_traceUnchecked (source : String) :
    (traceUnchecked source).events =
      (LexItem.errors (LexItem.ofSource source)).map .skippedInput ++
        (traceItems (LexItem.ofSource source)).events :=
  rfl

/-- Without lexical errors, only the statements of a text are reported. -/
theorem events_traceUnchecked_of_ok
    {source : String}
    {tokens : List Token}
    (lexed : Token.ofSource source = .ok tokens) :
    (traceUnchecked source).events = (Program.traceTokens tokens).events := by
  have collected : LexItem.collect (LexItem.ofSource source) = .ok tokens :=
    lexed
  have noErrors : LexItem.errors (LexItem.ofSource source) = [] := by
    unfold LexItem.collect at collected
    split at collected
    · assumption
    · cases collected
  rw [events_traceUnchecked, noErrors, traceItems, collected]
  rfl

/-- Lexical errors are reported one by one, and then their number. -/
theorem events_traceUnchecked_of_errors
    {source : String}
    {errors : List LexError}
    (errors_eq : LexItem.errors (LexItem.ofSource source) = errors)
    (failed : errors ≠ []) :
    (traceUnchecked source).events =
      errors.map .skippedInput ++ [.refusedAnalysis errors.length] := by
  have collected :
      LexItem.collect (LexItem.ofSource source) = .error errors := by
    unfold LexItem.collect
    rw [errors_eq]
    cases errors with
    | nil => exact absurd rfl failed
    | cons error others => rfl
  rw [events_traceUnchecked, errors_eq, traceItems, collected]
  rfl

/-! ## The events of a text -/

/-- What is reported while the items of a text are read: its statements from
their first tokens on if it is read, and its lexical errors if it has any. -/
theorem traceUnchecked_mirrors_program (source : String) :
    (∀ tree,
        Tree.ofSource source = .ok tree →
          ∃ program tokens passages,
            program.tree = tree ∧
              Program.ofSource source = .ok program ∧
              Token.ofSource source = .ok tokens ∧
              Statement.HasPassages .required tokens program.statements
                passages ∧
              passages.map Passage.statement = program.preorder ∧
              (traceUnchecked source).events = passages.map Passage.event ∧
              (passages.Pairwise fun left right =>
                left.first.position.offset < right.first.position.offset) ∧
              ∀ passage ∈ passages,
                passage.event.level = "DEBUG" ∧
                  passage.event.message =
                    if passage.statement.isConditional then
                      "conditional statement"
                    else
                      "assignment statement") ∧
      ∀ errors,
        LexItem.errors (LexItem.ofSource source) = errors →
          errors ≠ [] →
            (traceUnchecked source).events =
                errors.map .skippedInput ++ [.refusedAnalysis errors.length] ∧
              (errors.Pairwise fun left right =>
                left.position.offset < right.position.offset) ∧
              (traceUnchecked source).events.map Event.level =
                List.replicate errors.length "TRACE" ++ ["DEBUG"] := by
  constructor
  · intro tree read
    rw [ofSource_eq, map_eq_ok_iff] at read
    obtain ⟨program, programRead, tree_eq⟩ := read
    obtain ⟨tokens, lexed, tokensRead⟩ :=
      Program.ofSource_eq_ok_iff.mp programRead
    obtain ⟨passages, has, events_eq⟩ := Program.exists_passages tokensRead
    refine ⟨program, tokens, passages, tree_eq, programRead, lexed, has,
      has.map_statement, ?_, has.pairwise_offset lexed, ?_⟩
    · rw [events_traceUnchecked_of_ok lexed, events_eq]
    · intro passage _
      exact ⟨passage.level_event, passage.message_event⟩
  · intro errors errors_eq failed
    have events_eq := events_traceUnchecked_of_errors errors_eq failed
    refine ⟨events_eq, ?_, ?_⟩
    · rw [← errors_eq]
      exact LexItem.pairwise_offset_errors source
    · have levels_eq :
          (errors.map Event.skippedInput).map Event.level =
            List.replicate errors.length "TRACE" := by
        rw [List.map_map]
        exact List.map_const'
      rw [events_eq, List.map_append, levels_eq]
      rfl

/-- A conditional inside another is reported with its delimiter, and a text with
two stretches that make no token is refused. -/
theorem traceUnchecked_mirrors_program_nested :
    (∃ (program : Program) (tokens : List Token) (passages : List Passage),
      Tree.ofSource "if a<b then if c<d then x:=1; else y:=2; z:=3;" =
          .ok program.tree ∧
        Statement.HasPassages .required tokens program.statements passages ∧
          passages.map Passage.statement = program.preorder ∧
            passages.map Passage.event =
              [.conditionalStatement 0 19, .conditionalStatement 12 9,
                .assignmentStatement 24, .assignmentStatement 35,
                .assignmentStatement 41]) ∧
      [(⟨.unexpectedCharacter '@', ⟨2, 1, 3⟩⟩ : LexError),
          ⟨.malformedConstant "1y", ⟨4, 1, 5⟩⟩] ≠ [] ∧
        LexItem.errors (LexItem.ofSource "x @ 1y") =
            [⟨.unexpectedCharacter '@', ⟨2, 1, 3⟩⟩,
              ⟨.malformedConstant "1y", ⟨4, 1, 5⟩⟩] ∧
          (traceUnchecked "x @ 1y").events =
            [.skippedInput ⟨.unexpectedCharacter '@', ⟨2, 1, 3⟩⟩,
              .skippedInput ⟨.malformedConstant "1y", ⟨4, 1, 5⟩⟩,
              .refusedAnalysis 2] := by
  have read :
      Program.ofSource "if a<b then if c<d then x:=1; else y:=2; z:=3;" =
        .ok
          ⟨[.conditional ⟨.identifier "a", .less, .identifier "b"⟩
              [.conditional ⟨.identifier "c", .less, .identifier "d"⟩
                [.assignment "x" [.operand (.constant "1")]] none]
              (some [.assignment "y" [.operand (.constant "2")]]),
            .assignment "z" [.operand (.constant "3")]]⟩ := by
    cbv
  have treeRead := congrArg (Except.map Program.tree) read
  rw [← ofSource_eq] at treeRead
  obtain ⟨program, tokens, passages, tree_eq, _, _, has, preorder_eq, events_eq,
    _⟩ := (traceUnchecked_mirrors_program _).1 _ treeRead
  have failed :
      LexItem.errors (LexItem.ofSource "x @ 1y") =
        [⟨.unexpectedCharacter '@', ⟨2, 1, 3⟩⟩,
          ⟨.malformedConstant "1y", ⟨4, 1, 5⟩⟩] := by
    cbv
  have refused :=
    (traceUnchecked_mirrors_program "x @ 1y").2 _ failed (by simp)
  refine ⟨⟨program, tokens, passages, ?_, has, preorder_eq, ?_⟩, by simp,
    failed, refused.1⟩
  · rw [tree_eq]
    exact treeRead
  · rw [← events_eq]
    cbv

end Tree

end ConditionalAssignment
