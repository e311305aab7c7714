import ConditionalAssignment.Event
import ConditionalAssignment.Expression.Reading
import ConditionalAssignment.Statement
import ConditionalAssignment.Statement.Chunk
import ConditionalAssignment.Statement.Clause

/-!
# Reading statements

A range of tokens is read chunk by chunk.  The chunk of an assignment is read at
once; the chunk of a conditional is split into its clauses, whose branches are
ranges again and shorter.  A statement is reported before it is read.
-/

namespace ConditionalAssignment

/-- Read the operand of a condition. -/
def Operand.ofToken (token : Token) : Except ParseError Operand :=
  match Operand.ofToken? token with
  | some operand => .ok operand
  | none => .error (.blame token (.expectedOperand (some token.text)))

/-- Read the sign of a condition. -/
def ComparisonOperator.ofToken
    (token : Token) : Except ParseError ComparisonOperator :=
  let fault := ParseError.blame token (.expectedComparison token.text)
  if token.kind = .comparison then
    match ComparisonOperator.ofSymbol? token.text with
    | some operator => .ok operator
    | none => .error fault
  else
    .error fault

/-- Read a condition.  The opening token is blamed if there is no condition. -/
def Comparison.ofTokens
    (opening : Token) : List Token → Except ParseError Comparison
  | [left, sign, right] => do
      let left ← Operand.ofToken left
      let operator ← ComparisonOperator.ofToken sign
      let right ← Operand.ofToken right
      return ⟨left, operator, right⟩
  | [] => .error (.blame opening .invalidComparison)
  | first :: _ => .error (.blame first .invalidComparison)

namespace Statement

/-- Read an assignment, given its first token and the others. -/
def readAssignment
    (target : Token) : List Token → Except ParseError Statement
  | sign :: first :: others =>
      if sign.kind ≠ .assignment then
        .error (.blame sign (.expectedAssignment sign.text))
      else if target.kind ≠ .identifier then
        .error (.blame target (.expectedIdentifier target.text))
      else do
        let value ← Expression.ofTokens sign.position (first :: others)
        return .assignment target.text value
  | _ => .error (.blame target .incompleteStatement)

/-- Read all statements of a range. -/
def readRange
    (termination : Termination)
    (tokens : List Token) : Traced ParseError (List Statement) :=
  match tokens with
  | [] => Traced.succeed []
  | first :: others =>
      match _ : Chunk.ofRange termination first others with
      | .error error => Traced.fail error
      | .ok ⟨false, body, rest⟩ => do
          Traced.report (.assignmentStatement first.position.offset)
          let statement ← Traced.ofExcept (readAssignment first body)
          (statement :: ·) <$> readRange termination rest
      | .ok ⟨true, body, rest⟩ => do
          Traced.report
            (.conditionalStatement first.position.offset (body.length + 1))
          match _ : Clauses.ofBlock first body with
          | .error error => Traced.fail error
          | .ok ⟨condition, consequent, none⟩ => do
              let condition ←
                Traced.ofExcept (Comparison.ofTokens first condition)
              Traced.ofExcept consequent.check
              let thenBranch ← readRange termination consequent.body
              let statement := .conditional condition thenBranch none
              (statement :: ·) <$> readRange termination rest
          | .ok ⟨condition, consequent, some alternative⟩ => do
              let condition ←
                Traced.ofExcept (Comparison.ofTokens first condition)
              Traced.ofExcept consequent.check
              let thenBranch ← readRange .implied consequent.body
              Traced.ofExcept alternative.check
              let elseBranch ← readRange termination alternative.body
              let statement :=
                .conditional condition thenBranch (some elseBranch)
              (statement :: ·) <$> readRange termination rest
termination_by tokens.length
decreasing_by
  · rename_i chunkFound
    exact Chunk.length_rest_lt chunkFound
  · rename_i chunkFound clausesFound
    exact Nat.lt_trans (Clauses.length_body_lt clausesFound).1
      (Chunk.length_body_lt chunkFound)
  · rename_i chunkFound _
    exact Chunk.length_rest_lt chunkFound
  · rename_i chunkFound clausesFound
    exact Nat.lt_trans (Clauses.length_body_lt clausesFound).1
      (Chunk.length_body_lt chunkFound)
  · rename_i chunkFound clausesFound
    exact Nat.lt_trans ((Clauses.length_body_lt clausesFound).2 _ rfl)
      (Chunk.length_body_lt chunkFound)
  · rename_i chunkFound _
    exact Chunk.length_rest_lt chunkFound

/-- An empty range holds no statement. -/
@[simp] theorem outcome_readRange_nil (termination : Termination) :
    (readRange termination []).outcome = .ok [] := by
  rw [readRange, Traced.outcome_succeed]

/-- The outcome of reading a range, without its events. -/
theorem outcome_readRange_cons
    (termination : Termination)
    (first : Token)
    (others : List Token) :
    (readRange termination (first :: others)).outcome =
      (match Chunk.ofRange termination first others with
      | .error error => .error error
      | .ok ⟨false, body, rest⟩ => do
          let statement ← readAssignment first body
          (readRange termination rest).outcome.map (statement :: ·)
      | .ok ⟨true, body, rest⟩ =>
          match Clauses.ofBlock first body with
          | .error error => .error error
          | .ok ⟨condition, consequent, none⟩ => do
              let condition ← Comparison.ofTokens first condition
              consequent.check
              let thenBranch ← (readRange termination consequent.body).outcome
              let statement := Statement.conditional condition thenBranch none
              (readRange termination rest).outcome.map (statement :: ·)
          | .ok ⟨condition, consequent, some alternative⟩ => do
              let condition ← Comparison.ofTokens first condition
              consequent.check
              let thenBranch ← (readRange .implied consequent.body).outcome
              alternative.check
              let elseBranch ← (readRange termination alternative.body).outcome
              let statement :=
                Statement.conditional condition thenBranch (some elseBranch)
              (readRange termination rest).outcome.map (statement :: ·)) := by
  rw [readRange]
  split
  · rename_i found
    simp only [found, Traced.outcome_fail]
  · rename_i found
    simp only [found, Traced.outcome_bind, Traced.outcome_report,
      Traced.outcome_ofExcept, Traced.outcome_map]
    rfl
  · rename_i found
    simp only [found, Traced.outcome_bind, Traced.outcome_report]
    split
    · rename_i clausesFound
      simp only [clausesFound]
      rfl
    · rename_i clausesFound
      simp only [clausesFound, Traced.outcome_bind, Traced.outcome_ofExcept,
        Traced.outcome_map]
      rfl
    · rename_i clausesFound
      simp only [clausesFound, Traced.outcome_bind, Traced.outcome_ofExcept,
        Traced.outcome_map]
      rfl

end Statement

end ConditionalAssignment
