import ConditionalAssignment.Proofs.Grammar.Chunk
import ConditionalAssignment.Proofs.Grammar.Step

/-!
# Ranges are read as the grammar says

The statements of a range are those of the grammar, and of no other list of
words.  One direction goes along a derivation: every rule is a step of the
reader, whatever the rest of the range holds and whether or not that rest can be
read.  The other goes by induction on the length of the range and finds the rule
from the parts that the searches return.
-/

namespace ConditionalAssignment

/-! ## The parts of a statement -/

theorem Operand.ofToken_eq_ok_iff
    {token : Token}
    {operand : Operand} :
    Operand.ofToken token = .ok operand ↔ token.word = operand.word := by
  rw [← Operand.ofToken?_eq_some_iff]
  unfold Operand.ofToken
  cases Operand.ofToken? token <;> simp

theorem ComparisonOperator.ofToken_eq_ok_iff
    {token : Token}
    {operator : ComparisonOperator} :
    ComparisonOperator.ofToken token = .ok operator ↔
      token.word = ⟨.comparison, operator.symbol⟩ := by
  unfold ComparisonOperator.ofToken
  by_cases isComparison : token.kind = .comparison
  · cases found : ComparisonOperator.ofSymbol? token.text with
    | none =>
        have notSymbol : token.text ≠ operator.symbol := by
          intro text_eq
          rw [ofSymbol?_eq_some_iff.mpr text_eq] at found
          cases found
        simp [isComparison, Token.word, notSymbol]
    | some foundOperator =>
        have text_eq := ofSymbol?_eq_some_iff.mp found
        have same : foundOperator = operator ↔
            foundOperator.symbol = operator.symbol := by
          cases foundOperator <;> cases operator <;> simp [symbol]
        simp [isComparison, Token.word, text_eq, same]
  · simp [isComparison, Token.word]

/-- A condition is read from its words and from no others. -/
theorem Comparison.ofTokens_eq_ok_iff
    {opening : Token}
    {tokens : List Token}
    {comparison : Comparison} :
    Comparison.ofTokens opening tokens = .ok comparison ↔
      tokens.map Token.word = comparison.words := by
  obtain ⟨left, operator, right⟩ := comparison
  match tokens with
  | [leftToken, signToken, rightToken] =>
      simp only [ofTokens, bind_eq_ok_iff, Operand.ofToken_eq_ok_iff,
        ComparisonOperator.ofToken_eq_ok_iff, words, List.map_cons,
        List.map_nil, List.cons.injEq, and_true]
      constructor
      · rintro ⟨_, left_eq, _, sign_eq, _, right_eq, comparison_eq⟩
        cases comparison_eq
        exact ⟨left_eq, sign_eq, right_eq⟩
      · rintro ⟨left_eq, sign_eq, right_eq⟩
        exact ⟨left, left_eq, operator, sign_eq, right, right_eq, rfl⟩
  | [] => simp [ofTokens, words]
  | [_] => simp [ofTokens, words]
  | [_, _] => simp [ofTokens, words]
  | _ :: _ :: _ :: _ :: _ => simp [ofTokens, words]

theorem Expression.Reads.ne_nil
    {words : List Word}
    {value : Expression}
    (reads : Reads .value words value) :
    words ≠ [] := by
  cases reads <;> simp

/-- An assignment is read from the words of a name, a sign and an expression. -/
theorem Statement.readAssignment_eq_ok_iff
    {target : Token}
    {body : List Token}
    {statement : Statement} :
    readAssignment target body = .ok statement ↔
      ∃ name sign words value,
        (target :: body).map Token.word =
            ⟨.identifier, name⟩ :: ⟨.assignment, sign⟩ :: words ∧
          Expression.Reads .value words value ∧
            statement = .assignment name value := by
  match body with
  | sign :: first :: others =>
      unfold readAssignment
      by_cases isSign : sign.kind = .assignment
      · by_cases isName : target.kind = .identifier
        · simp only [isSign, isName, ne_eq, not_true_eq_false, if_false,
            bind_eq_ok_iff, Expression.ofTokens_eq_ok_iff]
          constructor
          · rintro ⟨value, valueReads, statement_eq⟩
            cases statement_eq
            refine ⟨target.text, sign.text, _, value, ?_, valueReads, rfl⟩
            simp [Token.word, isSign, isName]
          · rintro ⟨name, signText, words, value, words_eq, valueReads, rfl⟩
            simp only [List.map_cons, List.cons.injEq] at words_eq
            obtain ⟨target_eq, _, rfl⟩ := words_eq
            have text_eq := congrArg Word.text target_eq
            rw [Token.text_word] at text_eq
            refine ⟨value, valueReads, ?_⟩
            rw [text_eq]
            rfl
        · simp [isSign, isName, Token.word]
      · simp [isSign, Token.word]
  | [] => simp [readAssignment]
  | [sign] =>
      simp only [readAssignment, reduceCtorEq, false_iff]
      rintro ⟨name, signText, words, value, words_eq, valueReads, _⟩
      simp only [List.map_cons, List.map_nil, List.cons.injEq] at words_eq
      obtain ⟨_, _, rfl⟩ := words_eq
      exact valueReads.ne_nil rfl

/-! ## The rules are steps of the reader -/

namespace Statement

theorem outcome_readRange_assignment
    {termination : Termination}
    {target : Token}
    {body ending rest : List Token}
    {statement : Statement}
    (read : readAssignment target body = .ok statement)
    (ends : Ends termination (ending.map Token.word) (rest.map Token.word)) :
    (readRange termination (target :: (body ++ (ending ++ rest)))).outcome =
      (readRange termination rest).outcome.map (statement :: ·) := by
  obtain ⟨name, sign, words, value, words_eq, valueReads, rfl⟩ :=
    readAssignment_eq_ok_iff.mp read
  have noDelimiter : Lacks .delimiter ((target :: body).map Token.word) := by
    rw [words_eq]
    simp [valueReads.lacks .delimiter]
  have noReserved (keyword : Keyword) :
      Lacks (.keyword keyword) ((target :: body).map Token.word) := by
    rw [words_eq]
    simp [valueReads.lacks (.keyword keyword)]
  rw [outcome_readRange_cons,
    Chunk.ofRange_assignment noDelimiter noReserved ends]
  dsimp only
  rw [read]
  rfl

theorem check_of_exists_cons
    {clause : Clause}
    {first : Word}
    {others : List Word}
    (body_eq : clause.body.map Token.word = first :: others)
    (noDelimiter : first.kind ≠ .delimiter) :
    clause.check = .ok () := by
  obtain ⟨token, rest, rest_eq, rfl, _⟩ := List.map_eq_cons_iff.mp body_eq
  exact Clause.check_eq_ok_iff.mpr ⟨token, rest, rest_eq, noDelimiter⟩

/-- A conditional without `else` is read from its block, whatever follows. -/
theorem outcome_readRange_single
    {termination : Termination}
    {ifToken thenToken : Token}
    {conditionTokens branch ending rest : List Token}
    {condition : Comparison}
    {statement : Statement}
    (isIf : ifToken.kind = .keyword .ifWord)
    (isThen : thenToken.kind = .keyword .thenWord)
    (condition_eq : conditionTokens.map Token.word = condition.words)
    (branchReads : ReadsSimple (branch.map Token.word) statement)
    (ends : Ends termination (ending.map Token.word) (rest.map Token.word))
    (restLacks : Lacks (.keyword .elseWord) (rest.map Token.word)) :
    (readRange termination
        (ifToken :: (conditionTokens ++ thenToken ::
          (branch ++ (ending ++ rest))))).outcome = (do
      let thenBranch ← (readRange termination (branch ++ ending)).outcome
      (readRange termination rest).outcome.map
        (.conditional condition thenBranch none :: ·)) := by
  have conditionLacks (keyword : Keyword) :
      Lacks (.keyword keyword) (conditionTokens.map Token.word) := by
    rw [condition_eq]
    exact condition.lacks_words (.keyword keyword)
  have innerLacks :
      Lacks .delimiter
        ((conditionTokens ++ thenToken :: branch).map Token.word) := by
    simp [condition_eq, condition.lacks_words .delimiter, isThen,
      branchReads.lacks_delimiter]
  have endingLacks : Lacks (.keyword .elseWord) (ending.map Token.word) :=
    ends.lacks (by simp)
  have branchLacks :
      Lacks (.keyword .elseWord) ((branch ++ ending).map Token.word) := by
    simp [branchReads.lacks_else, endingLacks]
  have block_eq :
      Chunk.splitBlock
          (conditionTokens ++ thenToken :: (branch ++ (ending ++ rest))) =
        (conditionTokens ++ thenToken :: (branch ++ ending), rest) := by
    rw [Chunk.splitBlock_of_lacks (by
      simp [conditionLacks, isThen, branchReads.lacks_else, endingLacks,
        restLacks])]
    simpa using Chunk.splitBehindDelimiter_append innerLacks ends
  have delimited :
      termination = .implied ∨
        ¬ Lacks .delimiter
          ((conditionTokens ++ thenToken :: (branch ++ (ending ++ rest))).map
            Token.word) := by
    rcases ends.delimited with implied | hasDelimiter
    · exact Or.inl implied
    · exact Or.inr (by simp [hasDelimiter])
  obtain ⟨first, others, branch_eq, noDelimiter, _⟩ :=
    branchReads.exists_cons
  have checked :
      (Clause.mk .thenWord thenToken.position (branch ++ ending)).check =
        .ok () := by
    apply check_of_exists_cons _ noDelimiter
    · exact others ++ ending.map Token.word
    · simp [branch_eq]
  rw [outcome_readRange_cons, Chunk.ofRange_conditional isIf delimited,
    block_eq]
  dsimp only
  rw [Clauses.ofBlock_single isIf isThen conditionLacks branchLacks]
  dsimp only
  rw [Comparison.ofTokens_eq_ok_iff.mpr condition_eq, checked]
  rfl

/-- A conditional with `else` is read from its block, whatever follows. -/
theorem outcome_readRange_choice
    {termination : Termination}
    {ifToken thenToken elseToken : Token}
    {conditionTokens thenTokens branch ending rest : List Token}
    {condition : Comparison}
    {first statement : Statement}
    {others : List Statement}
    (isIf : ifToken.kind = .keyword .ifWord)
    (isThen : thenToken.kind = .keyword .thenWord)
    (isElse : elseToken.kind = .keyword .elseWord)
    (condition_eq : conditionTokens.map Token.word = condition.words)
    (thenReads : ReadsRange .implied (thenTokens.map Token.word)
      (first :: others))
    (branchReads : ReadsSimple (branch.map Token.word) statement)
    (ends : Ends termination (ending.map Token.word) (rest.map Token.word))
    (restLacks : Lacks (.keyword .elseWord) (rest.map Token.word)) :
    (readRange termination
        (ifToken :: (conditionTokens ++ thenToken ::
          (thenTokens ++ elseToken ::
            (branch ++ (ending ++ rest)))))).outcome = (do
      let thenBranch ← (readRange .implied thenTokens).outcome
      let elseBranch ← (readRange termination (branch ++ ending)).outcome
      (readRange termination rest).outcome.map
        (.conditional condition thenBranch (some elseBranch) :: ·)) := by
  have conditionLacks (keyword : Keyword) :
      Lacks (.keyword keyword) (conditionTokens.map Token.word) := by
    rw [condition_eq]
    exact condition.lacks_words (.keyword keyword)
  have endingLacks : Lacks (.keyword .elseWord) (ending.map Token.word) :=
    ends.lacks (by simp)
  have branchLacks :
      Lacks (.keyword .elseWord) ((branch ++ ending).map Token.word) := by
    simp [branchReads.lacks_else, endingLacks]
  have block_eq :
      Chunk.splitBlock
          (conditionTokens ++ thenToken ::
            (thenTokens ++ elseToken :: (branch ++ (ending ++ rest)))) =
        (conditionTokens ++ thenToken ::
          (thenTokens ++ elseToken :: (branch ++ ending)), rest) := by
    have split_eq :
        Chunk.splitBlock
          ((conditionTokens ++ thenToken :: thenTokens) ++ elseToken ::
            (branch ++ (ending ++ rest))) = _ :=
      Chunk.splitBlock_append isElse
        (by simp [branchReads.lacks_else, endingLacks, restLacks])
    rw [Chunk.splitBehindDelimiter_append branchReads.lacks_delimiter
      ends] at split_eq
    simpa using split_eq
  have delimited :
      termination = .implied ∨
        ¬ Lacks .delimiter
          ((conditionTokens ++ thenToken ::
            (thenTokens ++ elseToken :: (branch ++ (ending ++ rest)))).map
              Token.word) := by
    rcases ends.delimited with implied | hasDelimiter
    · exact Or.inl implied
    · exact Or.inr (by simp [hasDelimiter])
  obtain ⟨thenFirst, thenOthers, then_eq, thenNoDelimiter⟩ :=
    thenReads.exists_cons
  have thenChecked :
      (Clause.mk .thenWord thenToken.position thenTokens).check = .ok () :=
    check_of_exists_cons then_eq thenNoDelimiter
  obtain ⟨elseFirst, elseOthers, branch_eq, elseNoDelimiter, _⟩ :=
    branchReads.exists_cons
  have elseChecked :
      (Clause.mk .elseWord elseToken.position (branch ++ ending)).check =
        .ok () := by
    apply check_of_exists_cons _ elseNoDelimiter
    · exact elseOthers ++ ending.map Token.word
    · simp [branch_eq]
  rw [outcome_readRange_cons, Chunk.ofRange_conditional isIf delimited,
    block_eq]
  dsimp only
  rw [Clauses.ofBlock_choice isIf isThen isElse conditionLacks branchLacks]
  dsimp only
  rw [Comparison.ofTokens_eq_ok_iff.mpr condition_eq, thenChecked, elseChecked]
  rfl

/-- A simple statement is read from its words, whatever follows. -/
theorem outcome_readRange_simple
    {termination : Termination}
    {words : List Word}
    {statement : Statement}
    (reads : ReadsSimple words statement)
    {tokens ending rest : List Token}
    (words_eq : tokens.map Token.word = words)
    (ends : Ends termination (ending.map Token.word) (rest.map Token.word))
    (restLacks : statement.isConditional = true →
      Lacks (.keyword .elseWord) (rest.map Token.word)) :
    (readRange termination (tokens ++ (ending ++ rest))).outcome =
      (readRange termination rest).outcome.map (statement :: ·) := by
  induction reads generalizing tokens ending rest with
  | assignment valueReads =>
      obtain ⟨target, body, rfl, _, _⟩ := List.map_eq_cons_iff.mp words_eq
      have read :=
        readAssignment_eq_ok_iff.mpr ⟨_, _, _, _, words_eq, valueReads, rfl⟩
      exact outcome_readRange_assignment read ends
  | conditional branchReads inductionHypothesis =>
      obtain ⟨ifToken, block, rfl, if_eq, block_eq⟩ :=
        List.map_eq_cons_iff.mp words_eq
      obtain ⟨conditionTokens, behind, rfl, condition_eq, behind_eq⟩ :=
        List.map_eq_append_iff.mp block_eq
      obtain ⟨thenToken, branch, rfl, then_eq, rfl⟩ :=
        List.map_eq_cons_iff.mp behind_eq
      have branchRead :
          (readRange _ (branch ++ (ending ++ []))).outcome = _ :=
        inductionHypothesis rfl ends.before_nil fun _ => lacks_nil _
      rw [List.append_nil, outcome_readRange_nil] at branchRead
      simp only [List.cons_append, List.append_assoc]
      rw [outcome_readRange_single (congrArg Word.kind if_eq)
        (congrArg Word.kind then_eq) condition_eq branchReads ends
        (restLacks rfl), branchRead]
      rfl

/-- A range is read in front of any other, unless the statements of the first
and an `else` of the second would be taken together. -/
theorem outcome_readRange_append
    {termination : Termination}
    {words : List Word}
    {statements : List Statement}
    (reads : ReadsRange termination words statements)
    {tokens behind : List Token}
    (words_eq : tokens.map Token.word = words)
    (bounded : termination = .required ∨ behind.map Token.word = [])
    (separate :
      (∀ statement ∈ statements, statement.isConditional = false) ∨
        Lacks (.keyword .elseWord) (behind.map Token.word)) :
    (readRange termination (tokens ++ behind)).outcome =
      (readRange termination behind).outcome.map (statements ++ ·) := by
  induction reads generalizing tokens behind with
  | nil =>
      rw [List.map_eq_nil_iff] at words_eq
      subst words_eq
      rw [List.nil_append]
      cases (readRange _ behind).outcome with
      | error error => rfl
      | ok found => rfl
  | @simple termination _ _ _ statement _ simpleReads ends restLacks _
      inductionHypothesis =>
      obtain ⟨first, behindFirst, rfl, first_eq, behind_eq⟩ :=
        List.map_eq_append_iff.mp words_eq
      obtain ⟨ending, rest, rfl, rfl, rfl⟩ :=
        List.map_eq_append_iff.mp behind_eq
      rw [List.forall_mem_cons] at separate
      have wholeEnds :
          Ends termination (ending.map Token.word)
            ((rest ++ behind).map Token.word) := by
        rw [List.map_append]
        exact ends.append bounded
      have wholeLacks (isConditional : statement.isConditional = true) :
          Lacks (.keyword .elseWord) ((rest ++ behind).map Token.word) := by
        rw [List.map_append, lacks_append]
        refine ⟨restLacks isConditional, separate.resolve_left ?_⟩
        simp [isConditional]
      rw [List.append_assoc, List.append_assoc,
        outcome_readRange_simple simpleReads first_eq wholeEnds wholeLacks,
        inductionHypothesis rfl bounded (separate.imp_left And.right), map_map]
      rfl
  | @choice termination _ _ _ _ _ _ _ _ _ _ _ _ thenReads elseReads ends
      restLacks _ thenHypothesis restHypothesis =>
      obtain ⟨ifToken, block, rfl, if_eq, block_eq⟩ :=
        List.map_eq_cons_iff.mp words_eq
      obtain ⟨conditionTokens, behindCondition, rfl, condition_eq, then_eq⟩ :=
        List.map_eq_append_iff.mp block_eq
      obtain ⟨thenToken, behindThen, rfl, isThen, branches_eq⟩ :=
        List.map_eq_cons_iff.mp then_eq
      obtain ⟨thenTokens, behindBranch, rfl, rfl, else_eq⟩ :=
        List.map_eq_append_iff.mp branches_eq
      obtain ⟨elseToken, behindElse, rfl, isElse, branch_eq⟩ :=
        List.map_eq_cons_iff.mp else_eq
      obtain ⟨branch, behindBranch, rfl, rfl, behind_eq⟩ :=
        List.map_eq_append_iff.mp branch_eq
      obtain ⟨ending, rest, rfl, rfl, rfl⟩ :=
        List.map_eq_append_iff.mp behind_eq
      have behindLacks : Lacks (.keyword .elseWord) (behind.map Token.word) :=
        separate.resolve_left (by simp [isConditional])
      have wholeLacks :
          Lacks (.keyword .elseWord) ((rest ++ behind).map Token.word) := by
        rw [List.map_append]
        exact lacks_append.mpr ⟨restLacks, behindLacks⟩
      have wholeEnds :
          Ends termination (ending.map Token.word)
            ((rest ++ behind).map Token.word) := by
        rw [List.map_append]
        exact ends.append bounded
      -- The branches are ranges of their own: nothing stands behind them,
      -- whatever is put behind the conditional.
      have thenRead : (readRange _ (thenTokens ++ [])).outcome = _ :=
        thenHypothesis rfl (Or.inr rfl) (Or.inr (lacks_nil _))
      have elseRead :
          (readRange _ (branch ++ (ending ++ []))).outcome = _ :=
        outcome_readRange_simple elseReads rfl ends.before_nil
          fun _ => lacks_nil _
      rw [List.append_nil, outcome_readRange_nil] at thenRead elseRead
      rw [map_append_ok_nil] at thenRead
      simp only [List.cons_append, List.append_assoc]
      rw [outcome_readRange_choice (congrArg Word.kind if_eq)
        (congrArg Word.kind isThen) (congrArg Word.kind isElse) condition_eq
        thenReads elseReads wholeEnds wholeLacks, thenRead, elseRead,
        restHypothesis rfl bounded (Or.inr behindLacks)]
      exact map_map _ _ _

theorem outcome_readRange_of_reads
    {termination : Termination}
    {tokens : List Token}
    {statements : List Statement}
    (reads : ReadsRange termination (tokens.map Token.word) statements) :
    (readRange termination tokens).outcome = .ok statements := by
  have read : (readRange termination (tokens ++ [])).outcome = _ :=
    outcome_readRange_append reads rfl (Or.inr rfl) (Or.inr (lacks_nil _))
  rw [List.append_nil, outcome_readRange_nil, map_append_ok_nil] at read
  exact read

/-! ## What is read follows the rules -/

/-- A chunk without a reserved word follows the rule for assignments. -/
theorem reads_assignment
    {termination : Termination}
    {target : Token}
    {body ending rest : List Token}
    {statement : Statement}
    {statements : List Statement}
    (read : readAssignment target body = .ok statement)
    (ends : Ends termination (ending.map Token.word) (rest.map Token.word))
    (restReads : ReadsRange termination (rest.map Token.word) statements) :
    ReadsRange termination
      ((target :: (body ++ (ending ++ rest))).map Token.word)
      (statement :: statements) := by
  obtain ⟨name, sign, words, value, words_eq, valueReads, rfl⟩ :=
    readAssignment_eq_ok_iff.mp read
  rw [← List.cons_append, List.map_append, words_eq, List.map_append]
  exact .simple (.assignment valueReads) ends (by simp [isConditional])
    restReads

/-- A block without a second clause follows the rule for one branch. -/
theorem reads_single
    {termination : Termination}
    {first thenToken branchFirst : Token}
    {others body rest conditionTokens branch branchOthers : List Token}
    {condition : Comparison}
    {thenBranch statements : List Statement}
    (block_eq : Chunk.splitBlock others = (body, rest))
    (body_eq : body = conditionTokens ++ thenToken :: branch)
    (bodyLacks : Lacks (.keyword .elseWord) (body.map Token.word))
    (isIf : first.kind = .keyword .ifWord)
    (isThen : thenToken.kind = .keyword .thenWord)
    (condition_eq : conditionTokens.map Token.word = condition.words)
    (branch_eq : branch = branchFirst :: branchOthers)
    (noDelimiter : branchFirst.kind ≠ .delimiter)
    (branchReads : ReadsRange termination (branch.map Token.word) thenBranch)
    (restReads : ReadsRange termination (rest.map Token.word) statements) :
    ReadsRange termination ((first :: others).map Token.word)
      (.conditional condition thenBranch none :: statements) := by
  rcases lacks_or_exists_last .elseWord others with
    othersLacks | ⟨before, pivot, after, rfl, isElse, afterLacks⟩
  · rw [Chunk.splitBlock_of_lacks othersLacks] at block_eq
    obtain ⟨inner, ending, rfl, rfl, innerLacks, ends⟩ :=
      Chunk.exists_of_splitBehindDelimiter block_eq
    have whole_eq : (conditionTokens ++ [thenToken]) ++ branch =
        inner ++ ending := by
      rw [body_eq, List.append_assoc, List.singleton_append]
    obtain ⟨governed, rfl, rfl, nonempty⟩ :=
      exists_branch whole_eq branch_eq noDelimiter ends.before_nil
    simp only [List.map_append, lacks_append] at innerLacks othersLacks
    rw [List.map_append] at branchReads
    obtain ⟨statement, rfl, simpleReads, branchEnds⟩ :=
      branchReads.eq_singleton (by simpa using nonempty) innerLacks.2
        othersLacks.1.2 ends.before_nil
    have reads :
        ReadsRange termination
          ((⟨.keyword .ifWord, first.text⟩ ::
              (condition.words ++ ⟨.keyword .thenWord, thenToken.text⟩ ::
                governed.map Token.word)) ++
            (ending.map Token.word ++ rest.map Token.word)) _ :=
      .simple (.conditional simpleReads) (ends.of_implied branchEnds)
        (fun _ => othersLacks.2.2) restReads
    simpa [Token.word, isIf, isThen, ← condition_eq] using reads
  · rw [Chunk.splitBlock_append isElse afterLacks] at block_eq
    cases block_eq
    simp [isElse] at bodyLacks

/-- A block with a second clause follows the rule for a choice. -/
theorem reads_choice
    {termination : Termination}
    {first thenToken elseToken thenFirst elseFirst : Token}
    {others body rest conditionTokens thenTokens thenOthers branch elseOthers :
      List Token}
    {condition : Comparison}
    {thenBranch elseBranch statements : List Statement}
    (block_eq : Chunk.splitBlock others = (body, rest))
    (body_eq : body =
      conditionTokens ++ thenToken :: (thenTokens ++ elseToken :: branch))
    (branchLacks : Lacks (.keyword .elseWord) (branch.map Token.word))
    (isIf : first.kind = .keyword .ifWord)
    (isThen : thenToken.kind = .keyword .thenWord)
    (isElse : elseToken.kind = .keyword .elseWord)
    (condition_eq : conditionTokens.map Token.word = condition.words)
    (then_eq : thenTokens = thenFirst :: thenOthers)
    (branch_eq : branch = elseFirst :: elseOthers)
    (noDelimiter : elseFirst.kind ≠ .delimiter)
    (thenReads : ReadsRange .implied (thenTokens.map Token.word) thenBranch)
    (elseReads : ReadsRange termination (branch.map Token.word) elseBranch)
    (restReads : ReadsRange termination (rest.map Token.word) statements) :
    ReadsRange termination ((first :: others).map Token.word)
      (.conditional condition thenBranch (some elseBranch) :: statements) := by
  rcases lacks_or_exists_last .elseWord others with
    othersLacks | ⟨before, pivot, after, rfl, isPivot, afterLacks⟩
  · have whole_eq := Chunk.append_splitBlock others
    rw [block_eq, body_eq] at whole_eq
    rw [← whole_eq] at othersLacks
    simp [isElse] at othersLacks
  · rw [Chunk.splitBlock_append isPivot afterLacks] at block_eq
    obtain ⟨taken, behind, split_eq⟩ : ∃ taken behind,
        Chunk.splitBehindDelimiter after = (taken, behind) := ⟨_, _, rfl⟩
    rw [split_eq, Prod.mk.injEq] at block_eq
    obtain ⟨block_eq, rfl⟩ := block_eq
    obtain ⟨inner, ending, rfl, rfl, innerLacks, ends⟩ :=
      Chunk.exists_of_splitBehindDelimiter split_eq
    simp only [List.map_append, lacks_append] at afterLacks
    have cut_eq : (⟨before, pivot, inner ++ ending⟩ : Cut Token) =
        ⟨conditionTokens ++ thenToken :: thenTokens, elseToken, branch⟩ := by
      have innerNoElse := lacks_keyword_iff.mpr afterLacks.1
      have endingNoElse := lacks_keyword_iff.mpr afterLacks.2.1
      have branchNoElse := lacks_keyword_iff.mpr branchLacks
      refine Cut.eq_of_after ?_ (Token.isKeyword_eq_true_iff.mpr isPivot)
        (List.forall_mem_append.mpr ⟨innerNoElse, endingNoElse⟩)
        (Token.isKeyword_eq_true_iff.mpr isElse) branchNoElse
      rw [Cut.whole, block_eq, body_eq]
      simp [Cut.whole]
    rw [Cut.mk.injEq] at cut_eq
    obtain ⟨rfl, rfl, rfl⟩ := cut_eq
    have branchWhole_eq : [] ++ (inner ++ ending) = inner ++ ending := rfl
    obtain ⟨governed, governed_eq, inner_eq, nonempty⟩ :=
      exists_branch branchWhole_eq branch_eq noDelimiter ends.before_nil
    obtain rfl : inner = governed := inner_eq
    rw [List.map_append] at elseReads
    obtain ⟨statement, rfl, simpleReads, branchEnds⟩ :=
      elseReads.eq_singleton (by simpa using nonempty) innerLacks
        afterLacks.1 ends.before_nil
    cases thenBranch with
    | nil =>
        have words_eq := thenReads.words_eq_nil
        simp [then_eq] at words_eq
    | cons thenStatement thenStatements =>
        have reads :
            ReadsRange termination
              (⟨.keyword .ifWord, first.text⟩ ::
                (condition.words ++ ⟨.keyword .thenWord, thenToken.text⟩ ::
                  (thenTokens.map Token.word ++
                    ⟨.keyword .elseWord, pivot.text⟩ ::
                      (inner.map Token.word ++
                        (ending.map Token.word ++ behind.map Token.word)))))
              _ :=
          .choice thenReads simpleReads (ends.of_implied branchEnds)
            afterLacks.2.2 restReads
        simpa [Token.word, isIf, isThen, isPivot, ← condition_eq] using reads

/-- A block that is read follows one of the rules for conditionals. -/
theorem reads_block
    {termination : Termination}
    {first : Token}
    {others body rest : List Token}
    {statements : List Statement}
    (block_eq : Chunk.splitBlock others = (body, rest))
    (branchReads : ∀ mode part, part.length < body.length →
      ∀ branch, (readRange mode part).outcome = .ok branch →
        ReadsRange mode (part.map Token.word) branch)
    (restReads : ∀ found, (readRange termination rest).outcome = .ok found →
      ReadsRange termination (rest.map Token.word) found)
    (read :
      blockOutcome termination first body
        (readRange termination rest).outcome = .ok statements) :
    ReadsRange termination ((first :: others).map Token.word) statements := by
  unfold blockOutcome at read
  cases found : Clauses.ofBlock first body with
  | error error =>
      rw [found] at read
      cases read
  | ok clauses =>
      obtain ⟨conditionTokens, consequent, alternative⟩ := clauses
      obtain ⟨isIf, thenToken, isThen, parts⟩ := Clauses.eq_of_ofBlock found
      obtain ⟨thenShorter, elseShorter⟩ := Clauses.length_body_lt found
      rw [found] at read
      cases alternative with
      | none =>
          obtain ⟨body_eq, bodyLacks⟩ := parts
          obtain ⟨condition, conditionRead, read⟩ := bind_eq_ok_iff.mp read
          obtain ⟨_, checked, read⟩ := bind_eq_ok_iff.mp read
          obtain ⟨thenBranch, thenRead, read⟩ := bind_eq_ok_iff.mp read
          obtain ⟨behind, restRead, rfl⟩ := map_eq_ok_iff.mp read
          have condition_eq := Comparison.ofTokens_eq_ok_iff.mp conditionRead
          obtain ⟨_, _, branch_eq, noDelimiter⟩ :=
            Clause.check_eq_ok_iff.mp checked
          exact reads_single block_eq body_eq bodyLacks isIf isThen condition_eq
            branch_eq noDelimiter
            (branchReads _ _ thenShorter _ thenRead) (restReads _ restRead)
      | some alternative =>
          obtain ⟨elseToken, isElse, body_eq, branchLacks⟩ := parts
          obtain ⟨condition, conditionRead, read⟩ := bind_eq_ok_iff.mp read
          obtain ⟨_, thenChecked, read⟩ := bind_eq_ok_iff.mp read
          obtain ⟨thenBranch, thenRead, read⟩ := bind_eq_ok_iff.mp read
          obtain ⟨_, elseChecked, read⟩ := bind_eq_ok_iff.mp read
          obtain ⟨elseBranch, elseRead, read⟩ := bind_eq_ok_iff.mp read
          obtain ⟨behind, restRead, rfl⟩ := map_eq_ok_iff.mp read
          have condition_eq := Comparison.ofTokens_eq_ok_iff.mp conditionRead
          obtain ⟨_, _, then_eq, _⟩ := Clause.check_eq_ok_iff.mp thenChecked
          obtain ⟨_, _, branch_eq, noDelimiter⟩ :=
            Clause.check_eq_ok_iff.mp elseChecked
          exact reads_choice block_eq body_eq branchLacks isIf isThen isElse
            condition_eq then_eq branch_eq noDelimiter
            (branchReads _ _ thenShorter _ thenRead)
            (branchReads _ _ (elseShorter alternative rfl) _ elseRead)
            (restReads _ restRead)

theorem reads_of_outcome_readRange
    {termination : Termination}
    {tokens : List Token}
    {statements : List Statement}
    (read : (readRange termination tokens).outcome = .ok statements) :
    ReadsRange termination (tokens.map Token.word) statements := by
  induction termination, tokens using readRange_induction
    generalizing statements with
  | nil termination =>
      rw [outcome_readRange_nil] at read
      cases read
      exact .nil
  | error termination first others error found =>
      rw [outcome_readRange_of_error found] at read
      cases read
  | assignment termination first others body rest found restHypothesis =>
      rw [outcome_readRange_of_assignment found] at read
      obtain ⟨statement, statementRead, read⟩ := bind_eq_ok_iff.mp read
      obtain ⟨behind, restRead, rfl⟩ := map_eq_ok_iff.mp read
      obtain ⟨ending, rfl, ends⟩ := Chunk.eq_of_ofRange found
      exact reads_assignment statementRead ends (restHypothesis restRead)
  | block termination first others body rest found branchHypothesis
      restHypothesis =>
      rw [outcome_readRange_of_block found] at read
      have block_eq : Chunk.splitBlock others = (body, rest) :=
        Chunk.eq_of_ofRange found
      refine reads_block block_eq ?_ ?_ read
      · intro mode part shorter branch
        exact branchHypothesis mode part shorter
      · intro found
        exact restHypothesis

/-- The ranges that are read are those of the grammar. -/
theorem outcome_readRange_eq_ok_iff
    {termination : Termination}
    {tokens : List Token}
    {statements : List Statement} :
    (readRange termination tokens).outcome = .ok statements ↔
      ReadsRange termination (tokens.map Token.word) statements := by
  constructor
  · exact reads_of_outcome_readRange
  · intro reads
    exact outcome_readRange_of_reads reads

end Statement

end ConditionalAssignment
