import ConditionalAssignment.Statement.Reading

/-!
# One statement of a range

Reading a range takes one chunk, reads the statement in it and goes on with the
rest.  The statement is an assignment or the block of a conditional, whose
branches are ranges again and shorter.  What is proved about ranges follows
these cases, so they are set out here once, together with the induction over
them.
-/

namespace ConditionalAssignment

namespace Statement

/-- What a range that starts with a block gives, from what its rest gives. -/
def blockOutcome
    (termination : Termination)
    (first : Token)
    (body : List Token)
    (rest : Except ParseError (List Statement)) :
    Except ParseError (List Statement) :=
  match Clauses.ofBlock first body with
  | .error error => .error error
  | .ok ⟨condition, consequent, none⟩ => do
      let condition ← Comparison.ofTokens first condition
      consequent.check
      let thenBranch ← (readRange termination consequent.body).outcome
      rest.map (.conditional condition thenBranch none :: ·)
  | .ok ⟨condition, consequent, some alternative⟩ => do
      let condition ← Comparison.ofTokens first condition
      consequent.check
      let thenBranch ← (readRange .implied consequent.body).outcome
      alternative.check
      let elseBranch ← (readRange termination alternative.body).outcome
      rest.map (.conditional condition thenBranch (some elseBranch) :: ·)

variable
  {termination : Termination}
  {first : Token}
  {others body rest : List Token}

theorem outcome_readRange_of_error
    {error : ParseError}
    (found : Chunk.ofRange termination first others = .error error) :
    (readRange termination (first :: others)).outcome = .error error := by
  rw [outcome_readRange_cons, found]

theorem outcome_readRange_of_assignment
    (found : Chunk.ofRange termination first others = .ok ⟨false, body, rest⟩) :
    (readRange termination (first :: others)).outcome = (do
      let statement ← readAssignment first body
      (readRange termination rest).outcome.map (statement :: ·)) := by
  rw [outcome_readRange_cons, found]

theorem outcome_readRange_of_block
    (found : Chunk.ofRange termination first others = .ok ⟨true, body, rest⟩) :
    (readRange termination (first :: others)).outcome =
      blockOutcome termination first body
        (readRange termination rest).outcome := by
  rw [outcome_readRange_cons, found]
  rfl

/-- Prove a property of all ranges from the chunk of the first statement, the
rest of the range and, for a block, all shorter ranges. -/
theorem readRange_induction
    {motive : Termination → List Token → Prop}
    (nil : ∀ termination, motive termination [])
    (error : ∀ termination first others error,
      Chunk.ofRange termination first others = .error error →
        motive termination (first :: others))
    (assignment : ∀ termination first others body rest,
      Chunk.ofRange termination first others = .ok ⟨false, body, rest⟩ →
        motive termination rest → motive termination (first :: others))
    (block : ∀ termination first others body rest,
      Chunk.ofRange termination first others = .ok ⟨true, body, rest⟩ →
        (∀ mode part, part.length < body.length → motive mode part) →
          motive termination rest → motive termination (first :: others))
    (termination : Termination)
    (tokens : List Token) :
    motive termination tokens := by
  induction length_eq : tokens.length using Nat.strongRecOn
    generalizing termination tokens with
  | ind length inductionHypothesis =>
      subst length_eq
      cases tokens with
      | nil => exact nil termination
      | cons first others =>
          cases found : Chunk.ofRange termination first others with
          | error failure => exact error _ _ _ _ found
          | ok chunk =>
              obtain ⟨isConditional, body, rest⟩ := chunk
              have restHolds :=
                inductionHypothesis _ (Chunk.length_rest_lt found)
                  termination rest rfl
              cases isConditional with
              | false => exact assignment _ _ _ _ _ found restHolds
              | true =>
                  apply block _ _ _ _ _ found _ restHolds
                  intro mode part shorter
                  have bodyShorter := Chunk.length_body_lt found
                  exact inductionHypothesis _
                    (Nat.lt_trans shorter bodyShorter) mode part rfl

end Statement

end ConditionalAssignment
