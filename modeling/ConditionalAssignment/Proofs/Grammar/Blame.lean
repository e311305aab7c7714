import ConditionalAssignment.Proofs.Grammar.Chunk
import ConditionalAssignment.Proofs.Grammar.Step
import ConditionalAssignment.Proofs.Outcome

/-!
# Blamed tokens

Tokens that do not read as a program fail with an error that stands at one of
them and tells the truth about it: what the error quotes is the text of that
token, and what it complains about is of its kind.  In particular no reader of
tokens reports lexical errors, which only a text can hold.

An expression that ends too early has no token to blame, so the token before it
is blamed; it is handed down as the anchor.
-/

namespace ConditionalAssignment

/-- What a fault says of the blamed token is true, given all tokens. -/
def ParseFault.Describes
    (tokens : List Token)
    (token : Token) : ParseFault → Prop
  | lexical _ => False
  | unterminatedStatement => True
  | emptyStatement => token.kind = .delimiter
  | incompleteStatement => True
  | expectedIdentifier found => token.text = found
  | expectedAssignment found => token.text = found
  | expectedOperand none => True
  | expectedOperand (some found) => token.text = found
  | expectedOperator found => token.text = found
  | unexpectedToken found => token.text = found
  | unclosedBracket opening =>
      token.kind = .openBracket ∧ token.text = opening
  | mismatchedBracket opening close =>
      token.kind = .closeBracket ∧ token.text = close ∧
        ∃ opener : Token,
          opener.kind = .openBracket ∧ opener.text = opening ∧
            [opener, token].Sublist tokens
  | expectedKeyword _ found => token.text = found
  | missingThen => token.kind = .keyword .ifWord
  | misplacedElse => token.kind = .keyword .elseWord
  | invalidComparison => True
  | expectedComparison found => token.text = found
  | emptyBranch keyword => token.kind = .keyword keyword

/-- The error stands at one of the tokens and describes it. -/
def ParseError.Blames (tokens : List Token) (error : ParseError) : Prop :=
  ∃ token ∈ tokens,
    error.position = some token.position ∧
      error.fault.Describes tokens token

namespace ParseError

variable {tokens : List Token}

theorem blames_blame
    {token : Token}
    {fault : ParseFault}
    (member : token ∈ tokens)
    (describes : fault.Describes tokens token) :
    Blames tokens (.blame token fault) :=
  ⟨token, member, rfl, describes⟩

/-- An error that blames a token of a part blames a token of the whole. -/
theorem Blames.mono
    {part : List Token}
    {error : ParseError}
    (blames : Blames part error)
    (isPart : part.Sublist tokens) :
    Blames tokens error := by
  obtain ⟨token, member, position_eq, describes⟩ := blames
  refine ⟨token, isPart.mem member, position_eq, ?_⟩
  cases fault_eq : error.fault with
  | mismatchedBracket opening close =>
      rw [fault_eq] at describes
      obtain ⟨isClosing, text_eq, opener, isOpening, opener_eq, ordered⟩ :=
        describes
      exact ⟨isClosing, text_eq, opener, isOpening, opener_eq,
        ordered.trans isPart⟩
  | expectedOperand found =>
      rw [fault_eq] at describes
      cases found <;> exact describes
  | _ =>
      rw [fault_eq] at describes
      exact describes

theorem Blames.not_lexical
    {error : ParseError}
    (blames : Blames tokens error)
    (errors : List LexError) :
    error.fault ≠ .lexical errors := by
  intro fault_eq
  obtain ⟨token, _, _, describes⟩ := blames
  rw [fault_eq] at describes
  exact describes

end ParseError

/-- A reader fails only with errors that blame one of the tokens. -/
abbrev BlamesTokens
    {α : Type}
    (tokens : List Token)
    (outcome : Except ParseError α) : Prop :=
  FailsOnlyWith (ParseError.Blames tokens) outcome

namespace BlamesTokens

variable {α : Type} {tokens : List Token}

theorem blame
    {token : Token}
    {fault : ParseFault}
    (member : token ∈ tokens)
    (describes : fault.Describes tokens token) :
    BlamesTokens tokens (.error (.blame token fault) : Except ParseError α) :=
  FailsOnlyWith.error (ParseError.blames_blame member describes)

theorem mono
    {part : List Token}
    {outcome : Except ParseError α}
    (blames : BlamesTokens part outcome)
    (isPart : part.Sublist tokens) :
    BlamesTokens tokens outcome := by
  intro error failed
  exact (blames error failed).mono isPart

end BlamesTokens

/-! ## Parts of a cut -/

namespace Cut

variable {α : Type} (cut : Cut α)

theorem sublist_before_whole : cut.before.Sublist cut.whole :=
  List.sublist_append_left _ _

theorem pivot_mem_whole : cut.pivot ∈ cut.whole :=
  List.mem_append_right _ (.head _)

theorem sublist_after_whole : cut.after.Sublist cut.whole :=
  (List.sublist_cons_self _ _).trans (List.sublist_append_right _ _)

end Cut

/-! ## Expressions -/

namespace Expression

theorem closeGroup_blames
    {opening : Token}
    (isOpening : opening.kind = .openBracket)
    (rest : List Token) :
    BlamesTokens (opening :: rest) (closeGroup opening rest) := by
  unfold closeGroup
  split
  · exact .blame (.head _) ⟨isOpening, rfl⟩
  · rename_i cut found
    have isClosing := Cut.kind_pivot_of_atClose? found
    have whole_eq := Cut.whole_of_atClose? found
    have member : cut.pivot ∈ rest := by
      rw [← whole_eq]
      simp [Cut.whole]
    split
    · exact .ok _
    · apply BlamesTokens.blame (.tail _ member)
      refine ⟨isClosing, rfl, opening, isOpening, rfl, ?_⟩
      exact (List.singleton_sublist.mpr member).cons_cons _

/-- A group blames its tokens if its parts do. -/
theorem readFrom_openBracket_blames
    {expectation : Expectation}
    {anchor token : Token}
    {rest : List Token}
    (isOpening : token.kind = .openBracket)
    (partBlames : ∀ next (before : Token) (part : List Token),
      part.length < (token :: rest).length →
        BlamesTokens (before :: part) (readFrom next before.position part)) :
    BlamesTokens (token :: rest)
      (readFrom expectation anchor.position (token :: rest)) := by
  rw [readFrom_openBracket isOpening]
  apply (closeGroup_blames isOpening rest).bind
  intro cut closed
  have whole_eq := whole_of_closeGroup closed
  have beforeShorter := cut.length_before_lt
  have afterShorter := cut.length_after_lt
  rw [whole_eq] at beforeShorter afterShorter
  have innerPart : (token :: cut.before).Sublist (token :: rest) := by
    rw [← whole_eq]
    exact (List.sublist_append_left _ _).cons_cons _
  have behindPart : (cut.pivot :: cut.after).Sublist (token :: rest) := by
    rw [← whole_eq]
    exact (List.sublist_append_right _ _).cons _
  apply FailsOnlyWith.bind
  · exact (partBlames _ token _ (Nat.lt_succ_of_lt beforeShorter)).mono
      innerPart
  · intro inner _
    apply FailsOnlyWith.bind
    · exact (partBlames _ cut.pivot _ (Nat.lt_succ_of_lt afterShorter)).mono
        behindPart
    · intro terms _
      exact .ok _

/-- An expression blames its tokens or the one before it. -/
theorem readFrom_blames
    (expectation : Expectation)
    (anchor : Token)
    (tokens : List Token) :
    BlamesTokens (anchor :: tokens)
      (readFrom expectation anchor.position tokens) := by
  induction length_eq : tokens.length using Nat.strongRecOn
    generalizing expectation anchor tokens with
  | ind length inductionHypothesis =>
      subst length_eq
      cases tokens with
      | nil =>
          rw [readFrom.eq_def]
          cases expectation with
          | value => exact .blame (.head _) trivial
          | operator => exact .ok _
      | cons token rest =>
          have partBlames
              (next : Expectation)
              (before : Token)
              (part : List Token)
              (shorter : part.length < (token :: rest).length) :
              BlamesTokens (before :: part)
                (readFrom next before.position part) :=
            inductionHypothesis _ shorter next before part rfl
          have restBlames (next : Expectation) :=
            partBlames next token rest (Nat.lt_succ_self rest.length)
          refine BlamesTokens.mono ?_
            (List.sublist_cons_self anchor (token :: rest))
          by_cases isOpening : token.kind = .openBracket
          · exact readFrom_openBracket_blames isOpening partBlames
          · rw [readFrom.eq_def]
            dsimp only
            split
            · apply (restBlames _).bind
              intro terms _
              exact .ok _
            · apply (restBlames _).bind
              intro terms _
              exact .ok _
            · exact .blame (.head _) rfl
            · exact .blame (.head _) rfl
            · apply (restBlames _).bind
              intro terms _
              split
              · exact .ok _
              · exact .ok _
            · exact .blame (.head _) rfl
            · rename_i kind_eq
              exact absurd kind_eq isOpening
            · exact .blame (.head _) rfl

theorem ofTokens_blames
    (anchor : Token)
    (tokens : List Token) :
    BlamesTokens (anchor :: tokens) (ofTokens anchor.position tokens) :=
  readFrom_blames .value anchor tokens

end Expression

/-! ## The parts of a statement -/

theorem Operand.ofToken_blames
    {token : Token}
    {tokens : List Token}
    (member : token ∈ tokens) :
    BlamesTokens tokens (Operand.ofToken token) := by
  unfold Operand.ofToken
  split
  · exact .ok _
  · exact .blame member rfl

theorem ComparisonOperator.ofToken_blames
    {token : Token}
    {tokens : List Token}
    (member : token ∈ tokens) :
    BlamesTokens tokens (ComparisonOperator.ofToken token) := by
  unfold ComparisonOperator.ofToken
  dsimp only
  split
  · split
    · exact .ok _
    · exact .blame member rfl
  · exact .blame member rfl

theorem Comparison.ofTokens_blames
    (opening : Token)
    (tokens : List Token) :
    BlamesTokens (opening :: tokens) (Comparison.ofTokens opening tokens) := by
  unfold Comparison.ofTokens
  split
  · apply (Operand.ofToken_blames (by simp)).bind
    intro left _
    apply (ComparisonOperator.ofToken_blames (by simp)).bind
    intro operator _
    apply (Operand.ofToken_blames (by simp)).bind
    intro right _
    exact .ok _
  · exact .blame (.head _) trivial
  · exact .blame (by simp) trivial

namespace Statement

theorem readAssignment_blames
    (target : Token)
    (body : List Token) :
    BlamesTokens (target :: body) (readAssignment target body) := by
  unfold readAssignment
  split
  · rename_i sign first others
    split
    · exact .blame (by simp) rfl
    · split
      · exact .blame (.head _) rfl
      · apply FailsOnlyWith.bind
        · exact (Expression.ofTokens_blames sign _).mono
            (List.sublist_cons_self target _)
        · intro value _
          exact .ok _
  · exact .blame (.head _) trivial

end Statement

/-! ## Chunks and clauses -/

namespace Chunk

theorem ofRange_blames
    (termination : Termination)
    (first : Token)
    (others : List Token) :
    BlamesTokens (first :: others) (ofRange termination first others) := by
  unfold ofRange
  split
  · rename_i isDelimiter
    exact .blame (.head _) (Token.isDelimiter_eq_true_iff.mp isDelimiter)
  · split
    · exact .ok _
    · split
      · exact .ok _
      · exact .blame (.head _) trivial

/-- A chunk and the range after it are parts of the range. -/
theorem sublist_of_ofRange
    {termination : Termination}
    {first : Token}
    {others : List Token}
    {chunk : Chunk}
    (found : ofRange termination first others = .ok chunk) :
    (first :: chunk.body).Sublist (first :: others) ∧
      chunk.rest.Sublist (first :: others) := by
  obtain ⟨isConditional, body, rest⟩ := chunk
  have parts := eq_of_ofRange found
  have whole_eq : ∃ ending, others = body ++ (ending ++ rest) := by
    cases isConditional with
    | false =>
        obtain ⟨ending, whole_eq, _⟩ := parts
        exact ⟨ending, whole_eq⟩
    | true =>
        have whole_eq := append_splitBlock others
        rw [if_pos rfl] at parts
        rw [parts] at whole_eq
        exact ⟨[], whole_eq.symm⟩
  obtain ⟨ending, rfl⟩ := whole_eq
  constructor
  · exact (List.sublist_append_left _ _).cons_cons _
  · apply List.Sublist.cons
    exact (List.sublist_append_right _ _).trans (List.sublist_append_right _ _)

end Chunk

/-- The reserved word of a clause and its branch are among the tokens. -/
def Clause.IsPart (clause : Clause) (tokens : List Token) : Prop :=
  clause.body.Sublist tokens ∧
    ∃ token ∈ tokens,
      token.kind = .keyword clause.keyword ∧ token.position = clause.position

theorem Clause.check_blames
    {clause : Clause}
    {tokens : List Token}
    (isPart : clause.IsPart tokens) :
    BlamesTokens tokens clause.check := by
  obtain ⟨_, token, member, kind_eq, position_eq⟩ := isPart
  unfold check
  split
  · exact .ok _
  · rw [← position_eq]
    exact .blame member kind_eq

namespace Clauses

theorem ofBlock_blames
    (first : Token)
    (body : List Token) :
    BlamesTokens (first :: body) (ofBlock first body) := by
  unfold ofBlock
  split
  · rename_i isIf
    split
    · exact .blame (.head _) (Token.isKeyword_eq_true_iff.mp isIf)
    · rename_i thenCut thenFound
      obtain ⟨rfl, _⟩ := Cut.atFirst?_eq_some_iff.mp thenFound
      split
      · exact .ok _
      · split
        · rename_i elseCut elseFound
          obtain ⟨before_eq, isElse, _⟩ := Cut.atLast?_eq_some_iff.mp elseFound
          have member : elseCut.pivot ∈ thenCut.before := by
            rw [before_eq]
            exact elseCut.pivot_mem_whole
          apply BlamesTokens.blame
          · exact .tail _ (thenCut.sublist_before_whole.mem member)
          · exact Token.isKeyword_eq_true_iff.mp isElse
        · exact .ok _
  · exact .blame (.head _) rfl

/-- The clauses of a block are among its tokens. -/
theorem isPart_of_ofBlock
    {first : Token}
    {body : List Token}
    {clauses : Clauses}
    (found : ofBlock first body = .ok clauses) :
    clauses.condition.Sublist body ∧ clauses.consequent.IsPart body ∧
      ∀ clause ∈ clauses.alternative, clause.IsPart body := by
  unfold ofBlock at found
  split at found
  · split at found
    · cases found
    · rename_i thenCut thenFound
      obtain ⟨rfl, isThen, _⟩ := Cut.atFirst?_eq_some_iff.mp thenFound
      have thenMember : ∃ token ∈ thenCut.whole,
          token.kind = .keyword .thenWord ∧
            token.position = thenCut.pivot.position :=
        ⟨_, thenCut.pivot_mem_whole, Token.isKeyword_eq_true_iff.mp isThen, rfl⟩
      split at found
      · rename_i elseCut elseFound
        obtain ⟨after_eq, isElse, _⟩ := Cut.atLast?_eq_some_iff.mp elseFound
        have afterPart : elseCut.whole.Sublist thenCut.whole := by
          rw [← after_eq]
          exact thenCut.sublist_after_whole
        cases found
        refine ⟨thenCut.sublist_before_whole, ⟨?_, thenMember⟩, ?_⟩
        · exact elseCut.sublist_before_whole.trans afterPart
        · rintro _ ⟨⟩
          refine ⟨elseCut.sublist_after_whole.trans afterPart, elseCut.pivot,
            afterPart.mem elseCut.pivot_mem_whole,
            Token.isKeyword_eq_true_iff.mp isElse, rfl⟩
      · split at found
        · cases found
        · cases found
          refine ⟨thenCut.sublist_before_whole, ⟨?_, thenMember⟩, by simp⟩
          exact thenCut.sublist_after_whole
  · cases found

end Clauses

/-! ## Ranges -/

namespace Statement

/-- A conditional that cannot be read has a token to blame if its branches
have. -/
theorem block_blames
    {termination : Termination}
    {first : Token}
    {body tokens : List Token}
    {rest : Except ParseError (List Statement)}
    (bodyPart : (first :: body).Sublist tokens)
    (branchBlames : ∀ (mode : Termination) (part : List Token),
      part.length < body.length → part.Sublist body →
        BlamesTokens tokens (readRange mode part).outcome)
    (restBlames : BlamesTokens tokens rest) :
    BlamesTokens tokens (blockOutcome termination first body rest) := by
  unfold blockOutcome
  have clausesBlame := Clauses.ofBlock_blames first body
  have bodySublist := (List.sublist_cons_self first body).trans bodyPart
  cases clausesFound : Clauses.ofBlock first body with
  | error error =>
      have blames := clausesBlame error clausesFound
      exact FailsOnlyWith.error (blames.mono bodyPart)
  | ok clauses =>
      obtain ⟨conditionTokens, consequent, alternative⟩ := clauses
      obtain ⟨conditionPart, thenPart, elsePart⟩ :=
        Clauses.isPart_of_ofBlock clausesFound
      obtain ⟨thenShorter, elseShorter⟩ := Clauses.length_body_lt clausesFound
      have conditionBlames :
          BlamesTokens tokens (Comparison.ofTokens first conditionTokens) :=
        (Comparison.ofTokens_blames first conditionTokens).mono
          ((conditionPart.cons_cons first).trans bodyPart)
      have thenBlames (mode : Termination) :=
        branchBlames mode consequent.body thenShorter thenPart.1
      have thenCheckBlames := (Clause.check_blames thenPart).mono bodySublist
      cases alternative with
      | none =>
          apply conditionBlames.bind
          intro condition _
          apply thenCheckBlames.bind
          intro _ _
          apply (thenBlames termination).bind
          intro thenBranch _
          exact restBlames.map _
      | some alternative =>
          have elseCheckBlames :=
            (Clause.check_blames (elsePart alternative rfl)).mono bodySublist
          have elseBlames :=
            branchBlames termination alternative.body
              (elseShorter alternative rfl) (elsePart alternative rfl).1
          apply conditionBlames.bind
          intro condition _
          apply thenCheckBlames.bind
          intro _ _
          apply (thenBlames .implied).bind
          intro thenBranch _
          apply elseCheckBlames.bind
          intro _ _
          apply elseBlames.bind
          intro elseBranch _
          exact restBlames.map _

/-- A range that cannot be read has a token to blame. -/
theorem readRange_blames
    (termination : Termination)
    (tokens : List Token) :
    BlamesTokens tokens (readRange termination tokens).outcome := by
  induction termination, tokens using readRange_induction with
  | nil termination =>
      rw [outcome_readRange_nil]
      exact .ok _
  | error termination first others error found =>
      rw [outcome_readRange_of_error found]
      exact FailsOnlyWith.error
        (Chunk.ofRange_blames termination first others error found)
  | assignment termination first others body rest found restHypothesis =>
      obtain ⟨bodyPart, restPart⟩ := Chunk.sublist_of_ofRange found
      rw [outcome_readRange_of_assignment found]
      apply ((readAssignment_blames first body).mono bodyPart).bind
      intro statement _
      exact (restHypothesis.mono restPart).map _
  | block termination first others body rest found branchHypothesis
      restHypothesis =>
      obtain ⟨bodyPart, restPart⟩ := Chunk.sublist_of_ofRange found
      rw [outcome_readRange_of_block found]
      apply block_blames bodyPart _ (restHypothesis.mono restPart)
      intro mode part shorter isPart
      have partOfRange := isPart.trans (List.sublist_of_cons_sublist bodyPart)
      exact (branchHypothesis mode part shorter).mono partOfRange

end Statement

end ConditionalAssignment
