import ConditionalAssignment.Proofs.Grammar.Range

/-!
# Passages

Every statement of a range takes up a passage of its tokens: those from its
first token up to the first token of the next statement, or to the end of the
range.  The passages of its branches lie inside.  Reading a range reports every
passage before those inside it, at the place of its first token, so what is
reported mirrors what is read.
-/

namespace ConditionalAssignment

/-! ## Statements in order -/

namespace Statement

/-- A statement and the statements inside it, each before those of its then
branch and these before those of its else branch. -/
def preorder : Statement → List Statement
  | assignment target value => [assignment target value]
  | conditional condition thenBranch none =>
      conditional condition thenBranch none :: thenBranch.flatMap preorder
  | conditional condition thenBranch (some elseBranch) =>
      conditional condition thenBranch (some elseBranch) ::
        (thenBranch.flatMap preorder ++ elseBranch.flatMap preorder)
termination_by statement => sizeOf statement
decreasing_by
  · exact sizeOf_lt_of_mem_thenBranch ‹_›
  · exact sizeOf_lt_of_mem_thenBranch ‹_›
  · exact sizeOf_lt_of_mem_elseBranch ‹_›

end Statement

/-- The statements of a program at every depth of nesting. -/
def Program.preorder (program : Program) : List Statement :=
  program.statements.flatMap Statement.preorder

/-! ## Passages -/

/-- A statement and the tokens that it takes up.  The first of them stands
apart, as there always is one. -/
structure Passage where
  /-- The statement. -/
  statement : Statement
  /-- Its first token. -/
  first : Token
  /-- The tokens after the first one, a delimiter at the end among them. -/
  others : List Token

namespace Passage

/-- The tokens of a passage. -/
def tokens (passage : Passage) : List Token :=
  passage.first :: passage.others

/-- The tokens of a passage read as its statement. -/
def Reads (termination : Termination) (passage : Passage) : Prop :=
  Statement.ReadsRange termination (passage.tokens.map Token.word)
    [passage.statement]

/-- What is reported of a passage. -/
def event : Passage → Event
  | ⟨.assignment _ _, first, _⟩ => .assignmentStatement first.position.offset
  | ⟨.conditional _ _ _, first, others⟩ =>
      .conditionalStatement first.position.offset (first :: others).length

theorem level_event (passage : Passage) : passage.event.level = "DEBUG" := by
  obtain ⟨statement, first, others⟩ := passage
  cases statement <;> rfl

theorem message_event (passage : Passage) :
    passage.event.message =
      if passage.statement.isConditional then
        "conditional statement"
      else
        "assignment statement" := by
  obtain ⟨statement, first, others⟩ := passage
  cases statement <;> rfl

end Passage

namespace Statement

/-- The statements of a range take up its tokens in passages, one after the
other, and each is listed before those of its branches.  The delimiter behind a
conditional belongs to its passage and to that of the last statement in it. -/
inductive HasPassages :
    Termination → List Token → List Statement → List Passage → Prop
  | nil {termination : Termination} : HasPassages termination [] [] []
  | assignment
      {termination : Termination}
      {target : String}
      {value : Expression}
      {first : Token}
      {others rest : List Token}
      {statements : List Statement}
      {passages : List Passage} :
      Passage.Reads termination ⟨.assignment target value, first, others⟩ →
        HasPassages termination rest statements passages →
          HasPassages termination ((first :: others) ++ rest)
            (.assignment target value :: statements)
            (⟨.assignment target value, first, others⟩ :: passages)
  | withoutElse
      {termination : Termination}
      {condition : Comparison}
      {thenBranch statements : List Statement}
      {ifToken thenToken : Token}
      {conditionTokens thenTokens rest : List Token}
      {thenPassages passages : List Passage} :
      Passage.Reads termination
          ⟨.conditional condition thenBranch none, ifToken,
            conditionTokens ++ thenToken :: thenTokens⟩ →
        conditionTokens.map Token.word = condition.words →
          thenToken.kind = .keyword .thenWord →
            HasPassages termination thenTokens thenBranch thenPassages →
              HasPassages termination rest statements passages →
                HasPassages termination
                  ((ifToken :: (conditionTokens ++ thenToken :: thenTokens)) ++
                    rest)
                  (.conditional condition thenBranch none :: statements)
                  (⟨.conditional condition thenBranch none, ifToken,
                      conditionTokens ++ thenToken :: thenTokens⟩ ::
                    (thenPassages ++ passages))
  | withElse
      {termination : Termination}
      {condition : Comparison}
      {thenBranch elseBranch statements : List Statement}
      {ifToken thenToken elseToken : Token}
      {conditionTokens thenTokens elseTokens rest : List Token}
      {thenPassages elsePassages passages : List Passage} :
      Passage.Reads termination
          ⟨.conditional condition thenBranch (some elseBranch), ifToken,
            conditionTokens ++ thenToken ::
              (thenTokens ++ elseToken :: elseTokens)⟩ →
        conditionTokens.map Token.word = condition.words →
          thenToken.kind = .keyword .thenWord →
            elseToken.kind = .keyword .elseWord →
              HasPassages .implied thenTokens thenBranch thenPassages →
                HasPassages termination elseTokens elseBranch elsePassages →
                  HasPassages termination rest statements passages →
                    HasPassages termination
                      ((ifToken :: (conditionTokens ++ thenToken ::
                          (thenTokens ++ elseToken :: elseTokens))) ++ rest)
                      (.conditional condition thenBranch (some elseBranch) ::
                        statements)
                      (⟨.conditional condition thenBranch (some elseBranch),
                          ifToken, conditionTokens ++ thenToken ::
                            (thenTokens ++ elseToken :: elseTokens)⟩ ::
                        (thenPassages ++ elsePassages ++ passages))

namespace HasPassages

variable
  {termination : Termination}
  {tokens : List Token}
  {statements : List Statement}
  {passages : List Passage}

/-- The passages of a range are those of its statements at every depth. -/
theorem map_statement
    (has : HasPassages termination tokens statements passages) :
    passages.map Passage.statement = statements.flatMap preorder := by
  induction has with
  | nil => rfl
  | assignment _ _ restHypothesis =>
      rw [List.map_cons, List.flatMap_cons, restHypothesis, preorder]
      rfl
  | withoutElse _ _ _ _ _ thenHypothesis restHypothesis =>
      rw [List.map_cons, List.map_append, List.flatMap_cons, thenHypothesis,
        restHypothesis, preorder]
      rfl
  | withElse _ _ _ _ _ _ _ thenHypothesis elseHypothesis restHypothesis =>
      rw [List.map_cons, List.map_append, List.map_append, List.flatMap_cons,
        thenHypothesis, elseHypothesis, restHypothesis, preorder]
      rfl

/-- Passages start one after the other in the range. -/
theorem sublist_first
    (has : HasPassages termination tokens statements passages) :
    (passages.map Passage.first).Sublist tokens := by
  induction has with
  | nil => exact List.Sublist.refl _
  | assignment _ _ restHypothesis =>
      rw [List.map_cons, List.cons_append]
      exact (List.sublist_append_of_sublist_right restHypothesis).cons_cons _
  | withoutElse _ _ _ _ _ thenHypothesis restHypothesis =>
      rw [List.map_cons, List.map_append, List.cons_append]
      refine (List.Sublist.append ?_ restHypothesis).cons_cons _
      exact List.sublist_append_of_sublist_right (thenHypothesis.cons _)
  | withElse _ _ _ _ _ _ _ thenHypothesis elseHypothesis restHypothesis =>
      rw [List.map_cons, List.map_append, List.map_append, List.cons_append]
      refine (List.Sublist.append ?_ restHypothesis).cons_cons _
      apply List.sublist_append_of_sublist_right
      exact (thenHypothesis.append (elseHypothesis.cons _)).cons _

end HasPassages

/-! ## What is reported of a range -/

/-- What is read and reported behind the start of a block. -/
def traceBlock
    (termination : Termination)
    (first : Token)
    (body rest : List Token) : Traced ParseError (List Statement) :=
  match Clauses.ofBlock first body with
  | .error error => Traced.fail error
  | .ok ⟨condition, consequent, none⟩ => do
      let condition ← Traced.ofExcept (Comparison.ofTokens first condition)
      Traced.ofExcept consequent.check
      let thenBranch ← readRange termination consequent.body
      (.conditional condition thenBranch none :: ·) <$>
        readRange termination rest
  | .ok ⟨condition, consequent, some alternative⟩ => do
      let condition ← Traced.ofExcept (Comparison.ofTokens first condition)
      Traced.ofExcept consequent.check
      let thenBranch ← readRange .implied consequent.body
      Traced.ofExcept alternative.check
      let elseBranch ← readRange termination alternative.body
      (.conditional condition thenBranch (some elseBranch) :: ·) <$>
        readRange termination rest

variable
  {termination : Termination}
  {first : Token}
  {others body rest : List Token}

theorem events_readRange_of_assignment
    {statement : Statement}
    (found : Chunk.ofRange termination first others = .ok ⟨false, body, rest⟩)
    (read : readAssignment first body = .ok statement) :
    (readRange termination (first :: others)).events =
      .assignmentStatement first.position.offset ::
        (readRange termination rest).events := by
  rw [readRange]
  split
  · rename_i chunkFound
    rw [found] at chunkFound
    cases chunkFound
  · rename_i chunkFound
    rw [found] at chunkFound
    cases chunkFound
    rw [read]
    rfl
  · rename_i chunkFound
    rw [found] at chunkFound
    cases chunkFound

/-- A block is reported before anything inside it or behind it. -/
theorem events_readRange_of_block
    (found : Chunk.ofRange termination first others = .ok ⟨true, body, rest⟩) :
    (readRange termination (first :: others)).events =
      .conditionalStatement first.position.offset (first :: body).length ::
        (traceBlock termination first body rest).events := by
  rw [readRange]
  split
  · rename_i chunkFound
    rw [found] at chunkFound
    cases chunkFound
  · rename_i chunkFound
    rw [found] at chunkFound
    cases chunkFound
  · rename_i chunkFound
    rw [found] at chunkFound
    cases chunkFound
    rw [Traced.events_bind_of_ok (Traced.outcome_report _), traceBlock]
    split
    · rename_i clausesFound
      rw [clausesFound]
      rfl
    · rename_i clausesFound
      rw [clausesFound]
      rfl
    · rename_i clausesFound
      rw [clausesFound]
      rfl

theorem events_readRange_of_withoutElse
    {conditionTokens : List Token}
    {consequent : Clause}
    {condition : Comparison}
    {thenBranch : List Statement}
    (found : Chunk.ofRange termination first others = .ok ⟨true, body, rest⟩)
    (clauses_eq :
      Clauses.ofBlock first body = .ok ⟨conditionTokens, consequent, none⟩)
    (conditionRead :
      Comparison.ofTokens first conditionTokens = .ok condition)
    (checked : consequent.check = .ok ())
    (thenRead :
      (readRange termination consequent.body).outcome = .ok thenBranch) :
    (readRange termination (first :: others)).events =
      .conditionalStatement first.position.offset (first :: body).length ::
        ((readRange termination consequent.body).events ++
          (readRange termination rest).events) := by
  rw [events_readRange_of_block found, traceBlock, clauses_eq]
  dsimp only
  rw [Traced.events_bind_of_ok conditionRead, Traced.events_bind_of_ok checked,
    Traced.events_bind_of_ok thenRead]
  rfl

theorem events_readRange_of_withElse
    {conditionTokens : List Token}
    {consequent alternative : Clause}
    {condition : Comparison}
    {thenBranch elseBranch : List Statement}
    (found : Chunk.ofRange termination first others = .ok ⟨true, body, rest⟩)
    (clauses_eq :
      Clauses.ofBlock first body =
        .ok ⟨conditionTokens, consequent, some alternative⟩)
    (conditionRead :
      Comparison.ofTokens first conditionTokens = .ok condition)
    (thenChecked : consequent.check = .ok ())
    (thenRead : (readRange .implied consequent.body).outcome = .ok thenBranch)
    (elseChecked : alternative.check = .ok ())
    (elseRead :
      (readRange termination alternative.body).outcome = .ok elseBranch) :
    (readRange termination (first :: others)).events =
      .conditionalStatement first.position.offset (first :: body).length ::
        ((readRange .implied consequent.body).events ++
          (readRange termination alternative.body).events ++
            (readRange termination rest).events) := by
  rw [events_readRange_of_block found, traceBlock, clauses_eq]
  dsimp only
  rw [Traced.events_bind_of_ok conditionRead,
    Traced.events_bind_of_ok thenChecked, Traced.events_bind_of_ok thenRead,
    Traced.events_bind_of_ok elseChecked, Traced.events_bind_of_ok elseRead,
    List.append_assoc]
  rfl

/-- Reading the range reports its passages, in the order in which they are
listed. -/
def ReportsPassages
    (termination : Termination)
    (tokens : List Token)
    (statements : List Statement) : Prop :=
  ∃ passages,
    HasPassages termination tokens statements passages ∧
      (readRange termination tokens).events = passages.map Passage.event

/-- A block that is read would read as its statement with nothing behind it. -/
theorem reads_of_block
    {statement : Statement}
    (block_eq : Chunk.splitBlock others = (body, rest))
    (read : blockOutcome termination first body (.ok []) = .ok [statement]) :
    Passage.Reads termination ⟨statement, first, body⟩ := by
  rw [← outcome_readRange_nil termination] at read
  apply reads_block (Chunk.splitBlock_taken block_eq) _ _ read
  · intro mode part _ branch branchRead
    exact reads_of_outcome_readRange branchRead
  · intro behind restRead
    exact reads_of_outcome_readRange restRead

theorem reportsPassages_assignment
    {statement : Statement}
    {statements : List Statement}
    (found : Chunk.ofRange termination first others = .ok ⟨false, body, rest⟩)
    (read : readAssignment first body = .ok statement)
    (restReports : ReportsPassages termination rest statements) :
    ReportsPassages termination (first :: others)
      (statement :: statements) := by
  obtain ⟨passages, restHas, restEvents⟩ := restReports
  obtain ⟨ending, rfl, ends⟩ := Chunk.eq_of_ofRange found
  obtain ⟨target, _, _, value, _, _, rfl⟩ := readAssignment_eq_ok_iff.mp read
  have endsBefore :
      Ends termination (ending.map Token.word) ([].map Token.word) :=
    ends.before_nil
  have reads := reads_assignment read endsBefore .nil
  rw [List.append_nil] at reads
  refine ⟨⟨.assignment target value, first, body ++ ending⟩ :: passages,
    ?_, ?_⟩
  · rw [← List.append_assoc]
    exact .assignment reads restHas
  · rw [events_readRange_of_assignment found read, restEvents]
    rfl

theorem reportsPassages_withoutElse
    {conditionTokens : List Token}
    {consequent : Clause}
    {condition : Comparison}
    {thenBranch statements : List Statement}
    (found : Chunk.ofRange termination first others = .ok ⟨true, body, rest⟩)
    (clauses_eq :
      Clauses.ofBlock first body = .ok ⟨conditionTokens, consequent, none⟩)
    (conditionRead :
      Comparison.ofTokens first conditionTokens = .ok condition)
    (checked : consequent.check = .ok ())
    (thenRead :
      (readRange termination consequent.body).outcome = .ok thenBranch)
    (thenReports : ReportsPassages termination consequent.body thenBranch)
    (restReports : ReportsPassages termination rest statements) :
    ReportsPassages termination (first :: others)
      (.conditional condition thenBranch none :: statements) := by
  obtain ⟨thenPassages, thenHas, thenEvents⟩ := thenReports
  obtain ⟨passages, restHas, restEvents⟩ := restReports
  have block_eq : Chunk.splitBlock others = (body, rest) :=
    Chunk.eq_of_ofRange found
  have condition_eq := Comparison.ofTokens_eq_ok_iff.mp conditionRead
  obtain ⟨_, thenToken, isThen, body_eq, _⟩ := Clauses.eq_of_ofBlock clauses_eq
  have reads :
      Passage.Reads termination
        ⟨.conditional condition thenBranch none, first, body⟩ := by
    apply reads_of_block block_eq
    simp only [blockOutcome, clauses_eq, conditionRead, checked, thenRead]
    rfl
  refine ⟨⟨.conditional condition thenBranch none, first, body⟩ ::
    (thenPassages ++ passages), ?_, ?_⟩
  · have whole_eq := Chunk.append_splitBlock others
    rw [block_eq] at whole_eq
    subst whole_eq body_eq
    exact .withoutElse reads condition_eq isThen thenHas restHas
  · rw [events_readRange_of_withoutElse found clauses_eq conditionRead checked
      thenRead, thenEvents, restEvents, List.map_cons, List.map_append]
    rfl

theorem reportsPassages_withElse
    {conditionTokens : List Token}
    {consequent alternative : Clause}
    {condition : Comparison}
    {thenBranch elseBranch statements : List Statement}
    (found : Chunk.ofRange termination first others = .ok ⟨true, body, rest⟩)
    (clauses_eq :
      Clauses.ofBlock first body =
        .ok ⟨conditionTokens, consequent, some alternative⟩)
    (conditionRead :
      Comparison.ofTokens first conditionTokens = .ok condition)
    (thenChecked : consequent.check = .ok ())
    (thenRead : (readRange .implied consequent.body).outcome = .ok thenBranch)
    (elseChecked : alternative.check = .ok ())
    (elseRead :
      (readRange termination alternative.body).outcome = .ok elseBranch)
    (thenReports : ReportsPassages .implied consequent.body thenBranch)
    (elseReports : ReportsPassages termination alternative.body elseBranch)
    (restReports : ReportsPassages termination rest statements) :
    ReportsPassages termination (first :: others)
      (.conditional condition thenBranch (some elseBranch) :: statements) := by
  obtain ⟨thenPassages, thenHas, thenEvents⟩ := thenReports
  obtain ⟨elsePassages, elseHas, elseEvents⟩ := elseReports
  obtain ⟨passages, restHas, restEvents⟩ := restReports
  have block_eq : Chunk.splitBlock others = (body, rest) :=
    Chunk.eq_of_ofRange found
  have condition_eq := Comparison.ofTokens_eq_ok_iff.mp conditionRead
  obtain ⟨_, thenToken, isThen, elseToken, isElse, body_eq, _⟩ :=
    Clauses.eq_of_ofBlock clauses_eq
  have reads :
      Passage.Reads termination
        ⟨.conditional condition thenBranch (some elseBranch), first, body⟩ := by
    apply reads_of_block block_eq
    simp only [blockOutcome, clauses_eq, conditionRead, thenChecked, thenRead,
      elseChecked, elseRead]
    rfl
  refine ⟨⟨.conditional condition thenBranch (some elseBranch), first, body⟩ ::
    (thenPassages ++ elsePassages ++ passages), ?_, ?_⟩
  · have whole_eq := Chunk.append_splitBlock others
    rw [block_eq] at whole_eq
    subst whole_eq body_eq
    exact .withElse reads condition_eq isThen isElse thenHas elseHas restHas
  · rw [events_readRange_of_withElse found clauses_eq conditionRead thenChecked
      thenRead elseChecked elseRead, thenEvents, elseEvents, restEvents,
      List.map_cons, List.map_append, List.map_append]
    rfl

/-- A range that is read reports the passages of its statements. -/
theorem reportsPassages_of_outcome
    {termination : Termination}
    {tokens : List Token}
    {statements : List Statement}
    (read : (readRange termination tokens).outcome = .ok statements) :
    ReportsPassages termination tokens statements := by
  -- A branch is read after its conditional is reported, and the rest of the
  -- range after both branches: this is the order of the list of passages.
  induction termination, tokens using readRange_induction
    generalizing statements with
  | nil termination =>
      rw [outcome_readRange_nil] at read
      cases read
      refine ⟨[], .nil, ?_⟩
      rw [readRange]
      rfl
  | error termination first others error found =>
      rw [outcome_readRange_of_error found] at read
      cases read
  | assignment termination first others body rest found restHypothesis =>
      rw [outcome_readRange_of_assignment found] at read
      obtain ⟨statement, statementRead, read⟩ := bind_eq_ok_iff.mp read
      obtain ⟨behind, restRead, rfl⟩ := map_eq_ok_iff.mp read
      exact reportsPassages_assignment found statementRead
        (restHypothesis restRead)
  | block termination first others body rest found branchHypothesis
      restHypothesis =>
      rw [outcome_readRange_of_block found, blockOutcome] at read
      cases clauses_eq : Clauses.ofBlock first body with
      | error error =>
          rw [clauses_eq] at read
          cases read
      | ok clauses =>
          obtain ⟨conditionTokens, consequent, alternative⟩ := clauses
          obtain ⟨thenShorter, elseShorter⟩ := Clauses.length_body_lt clauses_eq
          rw [clauses_eq] at read
          cases alternative with
          | none =>
              obtain ⟨condition, conditionRead, read⟩ := bind_eq_ok_iff.mp read
              obtain ⟨_, checked, read⟩ := bind_eq_ok_iff.mp read
              obtain ⟨thenBranch, thenRead, read⟩ := bind_eq_ok_iff.mp read
              obtain ⟨behind, restRead, rfl⟩ := map_eq_ok_iff.mp read
              exact reportsPassages_withoutElse found clauses_eq conditionRead
                checked thenRead
                (branchHypothesis _ _ thenShorter thenRead)
                (restHypothesis restRead)
          | some alternative =>
              obtain ⟨condition, conditionRead, read⟩ := bind_eq_ok_iff.mp read
              obtain ⟨_, thenChecked, read⟩ := bind_eq_ok_iff.mp read
              obtain ⟨thenBranch, thenRead, read⟩ := bind_eq_ok_iff.mp read
              obtain ⟨_, elseChecked, read⟩ := bind_eq_ok_iff.mp read
              obtain ⟨elseBranch, elseRead, read⟩ := bind_eq_ok_iff.mp read
              obtain ⟨behind, restRead, rfl⟩ := map_eq_ok_iff.mp read
              exact reportsPassages_withElse found clauses_eq conditionRead
                thenChecked thenRead elseChecked elseRead
                (branchHypothesis _ _ thenShorter thenRead)
                (branchHypothesis _ _ (elseShorter alternative rfl) elseRead)
                (restHypothesis restRead)

end Statement

end ConditionalAssignment
