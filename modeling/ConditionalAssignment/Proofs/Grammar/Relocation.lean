import ConditionalAssignment.Proofs.Grammar.Chunk
import ConditionalAssignment.Proofs.Grammar.Step
import ConditionalAssignment.Proofs.Outcome

/-!
# Tokens at other places

Readers of tokens take places along and never look at them.  If every token is
given another place, the same statements are read, and an error is the same but
for its place, which is given another one in the same way.  Each reader is
compared with itself on the relocated tokens, from the searches up to ranges.
-/

namespace ConditionalAssignment

/-- The token at the place that is given for its own. -/
def Token.relocate (change : Position → Position) (token : Token) : Token :=
  { token with position := change token.position }

/-- The error at the place that is given for its own. -/
def ParseError.relocate
    (change : Position → Position)
    (error : ParseError) : ParseError :=
  { error with position := error.position.map change }

variable (change : Position → Position)

namespace Token

@[simp] theorem kind_relocate (token : Token) :
    (token.relocate change).kind = token.kind :=
  rfl

@[simp] theorem text_relocate (token : Token) :
    (token.relocate change).text = token.text :=
  rfl

end Token

/-! ## Cuts -/

namespace Cut

/-- The cut of a list whose elements are changed. -/
def map {α β : Type} (change : α → β) (cut : Cut α) : Cut β :=
  ⟨cut.before.map change, change cut.pivot, cut.after.map change⟩

/-- A change that the test does not see moves no first cut. -/
theorem atFirst?_map
    {α : Type}
    {test : α → Bool}
    {change : α → α}
    (unseen : ∀ element, test (change element) = test element)
    (list : List α) :
    atFirst? test (list.map change) = (atFirst? test list).map (map change) := by
  induction list with
  | nil => rfl
  | cons element rest inductionHypothesis =>
      rw [List.map_cons, atFirst?, atFirst?, unseen, inductionHypothesis]
      split
      · rfl
      · cases atFirst? test rest <;> rfl

/-- A change that the test does not see moves no last cut. -/
theorem atLast?_map
    {α : Type}
    {test : α → Bool}
    {change : α → α}
    (unseen : ∀ element, test (change element) = test element)
    (list : List α) :
    atLast? test (list.map change) = (atLast? test list).map (map change) := by
  induction list with
  | nil => rfl
  | cons element rest inductionHypothesis =>
      rw [List.map_cons, atLast?, atLast?, unseen, inductionHypothesis]
      cases atLast? test rest with
      | some cut => rfl
      | none =>
          dsimp only [Option.map_none]
          split <;> rfl

theorem atFirst?_isDelimiter_relocate (tokens : List Token) :
    atFirst? Token.isDelimiter (tokens.map (Token.relocate change)) =
      (atFirst? Token.isDelimiter tokens).map
        (map (Token.relocate change)) := by
  apply atFirst?_map
  intro token
  rfl

theorem atFirst?_isKeyword_relocate
    (keyword : Keyword)
    (tokens : List Token) :
    atFirst? (Token.isKeyword · keyword)
        (tokens.map (Token.relocate change)) =
      (atFirst? (Token.isKeyword · keyword) tokens).map
        (map (Token.relocate change)) := by
  apply atFirst?_map
  intro token
  rfl

theorem atLast?_isKeyword_relocate
    (keyword : Keyword)
    (tokens : List Token) :
    atLast? (Token.isKeyword · keyword)
        (tokens.map (Token.relocate change)) =
      (atLast? (Token.isKeyword · keyword) tokens).map
        (map (Token.relocate change)) := by
  apply atLast?_map
  intro token
  rfl

theorem atClose?_relocate (depth : Nat) (tokens : List Token) :
    atClose? depth (tokens.map (Token.relocate change)) =
      (atClose? depth tokens).map (map (Token.relocate change)) := by
  induction tokens generalizing depth with
  | nil => rfl
  | cons token rest inductionHypothesis =>
      have deeper (inner : Nat) :
          (atClose? inner (rest.map (Token.relocate change))).map
              (cons (token.relocate change)) =
            ((atClose? inner rest).map (cons token)).map
              (map (Token.relocate change)) := by
        rw [inductionHypothesis, Option.map_map, Option.map_map]
        rfl
      rw [List.map_cons, atClose?.eq_def,
        atClose?.eq_def depth (token :: rest)]
      simp only [Token.kind_relocate]
      split
      · exact deeper _
      · rfl
      · exact deeper _
      · exact deeper _

end Cut

/-! ## Expressions -/

namespace Expression

theorem closeGroup_relocate (opening : Token) (rest : List Token) :
    closeGroup (opening.relocate change) (rest.map (Token.relocate change)) =
      ((closeGroup opening rest).map (Cut.map (Token.relocate change))).mapError
        (ParseError.relocate change) := by
  unfold closeGroup
  rw [Cut.atClose?_relocate]
  cases Cut.atClose? 0 rest with
  | none => rfl
  | some cut =>
      dsimp only [Option.map_some]
      by_cases closes : cut.pivot.text.toList.head? = closingOf opening
      · have relocatedCloses :
            (cut.map (Token.relocate change)).pivot.text.toList.head? =
              closingOf (opening.relocate change) :=
          closes
        rw [if_pos closes, if_pos relocatedCloses]
        rfl
      · have relocatedCloses :
            (cut.map (Token.relocate change)).pivot.text.toList.head? ≠
              closingOf (opening.relocate change) :=
          closes
        rw [if_neg closes, if_neg relocatedCloses]
        rfl

/-- An expression is read alike at other places, and the anchor moves along. -/
theorem readFrom_relocate
    (expectation : Expectation)
    (anchor : Position)
    (tokens : List Token) :
    readFrom expectation (change anchor)
        (tokens.map (Token.relocate change)) =
      (readFrom expectation anchor tokens).mapError
        (ParseError.relocate change) := by
  induction expectation, anchor, tokens using readFrom_induction with
  | finish expectation anchor =>
      rw [List.map_nil, readFrom.eq_def, readFrom.eq_def]
      cases expectation <;> rfl
  | operand anchor token rest operand word_eq inductionHypothesis =>
      have relocated_eq : (token.relocate change).word = _ := word_eq
      rw [List.map_cons, readFrom_operand word_eq,
        readFrom_operand relocated_eq, mapError_map, ← inductionHypothesis]
      rfl
  | operator anchor token rest isArithmetic inductionHypothesis =>
      have relocatedArithmetic :
          (token.relocate change).kind = .arithmetic := isArithmetic
      rw [List.map_cons, readFrom_arithmetic isArithmetic,
        readFrom_arithmetic relocatedArithmetic, mapError_map,
        ← inductionHypothesis]
      rfl
  | misplaced expectation anchor token rest fault misplaced =>
      have relocatedMisplaced :
          misplacedFault? expectation (token.relocate change) = some fault :=
        misplaced
      rw [List.map_cons, readFrom_misplaced misplaced,
        readFrom_misplaced relocatedMisplaced]
      rfl
  | unclosed expectation anchor token rest error isOpening failed =>
      have relocatedOpening :
          (token.relocate change).kind = .openBracket := isOpening
      rw [List.map_cons, readFrom_openBracket isOpening,
        readFrom_openBracket relocatedOpening, closeGroup_relocate, failed]
      rfl
  | group expectation anchor token rest cut isOpening closed innerHypothesis
      restHypothesis =>
      have relocatedOpening :
          (token.relocate change).kind = .openBracket := isOpening
      rw [List.map_cons, readFrom_openBracket isOpening,
        readFrom_openBracket relocatedOpening, closeGroup_relocate, closed]
      have parts_eq (group : Expression → Expression → Expression) :
          (do
            let inner ← readFrom .value (change token.position)
              (cut.before.map (Token.relocate change))
            let terms ← readFrom .operator (change cut.pivot.position)
              (cut.after.map (Token.relocate change))
            return group inner terms) =
          Except.mapError (ParseError.relocate change) (do
            let inner ← readFrom .value token.position cut.before
            let terms ← readFrom .operator cut.pivot.position cut.after
            return group inner terms) := by
        rw [innerHypothesis, restHypothesis, mapError_bind]
        simp only [mapError_bind]
        rfl
      exact parts_eq _

theorem ofTokens_relocate (anchor : Position) (tokens : List Token) :
    ofTokens (change anchor) (tokens.map (Token.relocate change)) =
      (ofTokens anchor tokens).mapError (ParseError.relocate change) :=
  readFrom_relocate change .value anchor tokens

end Expression

/-! ## The parts of a statement -/

theorem Operand.ofToken_relocate (token : Token) :
    Operand.ofToken (token.relocate change) =
      (Operand.ofToken token).mapError (ParseError.relocate change) := by
  unfold Operand.ofToken
  have found_eq :
      Operand.ofToken? (token.relocate change) = Operand.ofToken? token :=
    rfl
  rw [found_eq]
  cases Operand.ofToken? token <;> rfl

theorem ComparisonOperator.ofToken_relocate (token : Token) :
    ComparisonOperator.ofToken (token.relocate change) =
      (ComparisonOperator.ofToken token).mapError
        (ParseError.relocate change) := by
  unfold ComparisonOperator.ofToken
  by_cases isComparison : token.kind = .comparison
  · simp only [Token.kind_relocate, Token.text_relocate, isComparison,
      if_true]
    cases ComparisonOperator.ofSymbol? token.text <;> rfl
  · simp only [Token.kind_relocate, isComparison, if_false]
    rfl

theorem Comparison.ofTokens_relocate (opening : Token) (tokens : List Token) :
    Comparison.ofTokens (opening.relocate change)
        (tokens.map (Token.relocate change)) =
      (Comparison.ofTokens opening tokens).mapError
        (ParseError.relocate change) := by
  match tokens with
  | [left, sign, right] =>
      simp only [List.map_cons, List.map_nil, ofTokens, mapError_bind,
        Operand.ofToken_relocate, ComparisonOperator.ofToken_relocate]
      rfl
  | [] => rfl
  | [_] => rfl
  | [_, _] => rfl
  | _ :: _ :: _ :: _ :: _ => rfl

namespace Statement

theorem readAssignment_relocate (target : Token) (body : List Token) :
    readAssignment (target.relocate change)
        (body.map (Token.relocate change)) =
      (readAssignment target body).mapError (ParseError.relocate change) := by
  match body with
  | sign :: first :: others =>
      have value_eq :=
        Expression.ofTokens_relocate change sign.position (first :: others)
      rw [List.map_cons] at value_eq
      simp only [List.map_cons, readAssignment, Token.kind_relocate]
      by_cases isSign : sign.kind = .assignment
      · by_cases isName : target.kind = .identifier
        · simp only [isSign, isName, ne_eq, not_true_eq_false, if_false,
            mapError_bind, ← value_eq]
          rfl
        · simp only [isSign, isName, ne_eq, not_true_eq_false, if_false,
            not_false_eq_true, if_true]
          rfl
      · simp only [isSign, ne_eq, not_false_eq_true, if_true]
        rfl
  | [] => rfl
  | [_] => rfl

end Statement

/-! ## Chunks and clauses -/

namespace Chunk

theorem splitBehindDelimiter_relocate (tokens : List Token) :
    splitBehindDelimiter (tokens.map (Token.relocate change)) =
      (splitBehindDelimiter tokens).map (List.map (Token.relocate change))
        (List.map (Token.relocate change)) := by
  unfold splitBehindDelimiter
  rw [Cut.atFirst?_isDelimiter_relocate]
  cases Cut.atFirst? Token.isDelimiter tokens with
  | none => rfl
  | some cut => simp [Cut.map]

theorem splitBlock_relocate (tokens : List Token) :
    splitBlock (tokens.map (Token.relocate change)) =
      (splitBlock tokens).map (List.map (Token.relocate change))
        (List.map (Token.relocate change)) := by
  unfold splitBlock
  rw [Cut.atLast?_isKeyword_relocate]
  cases Cut.atLast? (Token.isKeyword · .elseWord) tokens with
  | none => exact splitBehindDelimiter_relocate change tokens
  | some cut => simp [Cut.map, splitBehindDelimiter_relocate]

/-- The chunk with its tokens at other places. -/
def relocate (chunk : Chunk) : Chunk :=
  ⟨chunk.isConditional, chunk.body.map (Token.relocate change),
    chunk.rest.map (Token.relocate change)⟩

theorem ofHead_relocate (first : Token) (others head rest : List Token) :
    ofHead (first.relocate change) (others.map (Token.relocate change))
        (head.map (Token.relocate change)) (rest.map (Token.relocate change)) =
      (ofHead first others head rest).relocate change := by
  have any_eq :
      (first.relocate change :: head.map (Token.relocate change)).any
          Token.isReserved =
        (first :: head).any Token.isReserved := by
    rw [← List.map_cons, List.any_map]
    rfl
  unfold ofHead
  rw [any_eq, splitBlock_relocate]
  split <;> rfl

theorem ofRange_relocate
    (termination : Termination)
    (first : Token)
    (others : List Token) :
    ofRange termination (first.relocate change)
        (others.map (Token.relocate change)) =
      ((ofRange termination first others).map (relocate change)).mapError
        (ParseError.relocate change) := by
  have delimiter_eq :
      (first.relocate change).isDelimiter = first.isDelimiter :=
    rfl
  unfold ofRange
  rw [delimiter_eq, Cut.atFirst?_isDelimiter_relocate]
  split
  · rfl
  · cases Cut.atFirst? Token.isDelimiter others with
    | some cut => exact congrArg Except.ok (ofHead_relocate change _ _ _ _)
    | none =>
        cases termination with
        | required => rfl
        | implied => exact congrArg Except.ok (ofHead_relocate change _ _ _ [])

end Chunk

namespace Clause

/-- The clause with its tokens at other places. -/
def relocate (clause : Clause) : Clause :=
  ⟨clause.keyword, change clause.position,
    clause.body.map (Token.relocate change)⟩

theorem check_relocate (clause : Clause) :
    (clause.relocate change).check =
      clause.check.mapError (ParseError.relocate change) := by
  obtain ⟨keyword, position, body⟩ := clause
  unfold check relocate
  cases body with
  | nil => rfl
  | cons first others =>
      have delimiter_eq :
          (first.relocate change).isDelimiter = first.isDelimiter :=
        rfl
      simp only [List.map_cons, List.head?_cons, Option.map_some, delimiter_eq]
      cases first.isDelimiter <;> rfl

end Clause

namespace Clauses

/-- The clauses with their tokens at other places. -/
def relocate (clauses : Clauses) : Clauses :=
  ⟨clauses.condition.map (Token.relocate change),
    clauses.consequent.relocate change,
    clauses.alternative.map (Clause.relocate change)⟩

theorem ofBlock_relocate (first : Token) (body : List Token) :
    ofBlock (first.relocate change) (body.map (Token.relocate change)) =
      ((ofBlock first body).map (relocate change)).mapError
        (ParseError.relocate change) := by
  have isIf_eq :
      (first.relocate change).isKeyword .ifWord = first.isKeyword .ifWord :=
    rfl
  unfold ofBlock
  rw [isIf_eq, Cut.atFirst?_isKeyword_relocate]
  split
  · cases Cut.atFirst? (Token.isKeyword · .thenWord) body with
    | none => rfl
    | some thenCut =>
        simp only [Option.map_some, Cut.map]
        rw [Cut.atLast?_isKeyword_relocate,
          Cut.atLast?_isKeyword_relocate]
        cases Cut.atLast? (Token.isKeyword · .elseWord) thenCut.after with
        | some elseCut => rfl
        | none =>
            cases Cut.atLast? (Token.isKeyword · .elseWord) thenCut.before with
            | some elseCut => rfl
            | none => rfl
  · rfl

end Clauses

/-! ## Ranges -/

namespace Statement

/-- A block is read alike at other places if its branches and the rest are. -/
theorem blockOutcome_relocate
    {termination : Termination}
    {first : Token}
    {body : List Token}
    {rest restRelocated : Except ParseError (List Statement)}
    (branchesRelocate : ∀ mode part, part.length < body.length →
      (readRange mode (part.map (Token.relocate change))).outcome =
        (readRange mode part).outcome.mapError (ParseError.relocate change))
    (restRelocates :
      restRelocated = rest.mapError (ParseError.relocate change)) :
    blockOutcome termination (first.relocate change)
        (body.map (Token.relocate change)) restRelocated =
      (blockOutcome termination first body rest).mapError
        (ParseError.relocate change) := by
  subst restRelocates
  unfold blockOutcome
  rw [Clauses.ofBlock_relocate]
  cases found : Clauses.ofBlock first body with
  | error error => rfl
  | ok clauses =>
      obtain ⟨thenShorter, elseShorter⟩ := Clauses.length_body_lt found
      obtain ⟨condition, consequent, alternative⟩ := clauses
      have then_eq (mode : Termination) :=
        branchesRelocate mode consequent.body thenShorter
      have condition_eq :=
        Comparison.ofTokens_relocate change first condition
      have check_eq := Clause.check_relocate change consequent
      cases alternative with
      | none =>
          have block_eq : (do
              let condition ← Comparison.ofTokens (first.relocate change)
                (condition.map (Token.relocate change))
              (consequent.relocate change).check
              let thenBranch ← (readRange termination
                (consequent.body.map (Token.relocate change))).outcome
              (rest.mapError (ParseError.relocate change)).map
                (conditional condition thenBranch none :: ·)) =
            Except.mapError (ParseError.relocate change) (do
              let condition ← Comparison.ofTokens first condition
              consequent.check
              let thenBranch ← (readRange termination consequent.body).outcome
              rest.map (conditional condition thenBranch none :: ·)) := by
            rw [condition_eq, check_eq, then_eq]
            simp only [mapError_bind, mapError_map]
          exact block_eq
      | some alternative =>
          have elseCheck_eq := Clause.check_relocate change alternative
          have else_eq :=
            branchesRelocate termination alternative.body
              (elseShorter alternative rfl)
          have block_eq : (do
              let condition ← Comparison.ofTokens (first.relocate change)
                (condition.map (Token.relocate change))
              (consequent.relocate change).check
              let thenBranch ← (readRange .implied
                (consequent.body.map (Token.relocate change))).outcome
              (alternative.relocate change).check
              let elseBranch ← (readRange termination
                (alternative.body.map (Token.relocate change))).outcome
              (rest.mapError (ParseError.relocate change)).map
                (conditional condition thenBranch (some elseBranch) :: ·)) =
            Except.mapError (ParseError.relocate change) (do
              let condition ← Comparison.ofTokens first condition
              consequent.check
              let thenBranch ← (readRange .implied consequent.body).outcome
              alternative.check
              let elseBranch ←
                (readRange termination alternative.body).outcome
              rest.map
                (conditional condition thenBranch (some elseBranch) :: ·)) := by
            rw [condition_eq, check_eq, then_eq, elseCheck_eq, else_eq]
            simp only [mapError_bind, mapError_map]
          exact block_eq

/-- A range is read alike at other places. -/
theorem readRange_relocate (termination : Termination) (tokens : List Token) :
    (readRange termination (tokens.map (Token.relocate change))).outcome =
      (readRange termination tokens).outcome.mapError
        (ParseError.relocate change) := by
  induction termination, tokens using readRange_induction with
  | nil termination => rw [List.map_nil, outcome_readRange_nil]; rfl
  | error termination first others error found =>
      have relocated := Chunk.ofRange_relocate change termination first others
      rw [found] at relocated
      rw [List.map_cons, outcome_readRange_of_error found,
        outcome_readRange_of_error relocated]
      rfl
  | assignment termination first others body rest found restHypothesis =>
      have relocated := Chunk.ofRange_relocate change termination first others
      rw [found] at relocated
      rw [List.map_cons, outcome_readRange_of_assignment found,
        outcome_readRange_of_assignment relocated, readAssignment_relocate,
        restHypothesis]
      simp only [mapError_bind, mapError_map]
  | block termination first others body rest found branchHypothesis
      restHypothesis =>
      have relocated := Chunk.ofRange_relocate change termination first others
      rw [found] at relocated
      rw [List.map_cons, outcome_readRange_of_block found,
        outcome_readRange_of_block relocated]
      exact blockOutcome_relocate change branchHypothesis restHypothesis

end Statement

end ConditionalAssignment
