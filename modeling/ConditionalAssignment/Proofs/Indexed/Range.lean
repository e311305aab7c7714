import ConditionalAssignment.Proofs.Grammar.Step
import ConditionalAssignment.Proofs.Indexed.Conditional
import ConditionalAssignment.Proofs.Indexed.Expression

/-!
# No index goes wrong

Reading by index gives what the readers that cut lists give, so it never ends in
a fault, whatever the tokens are: not even if a text is no spelling of its kind.
One step takes the first statement off a range, and what it reads besides is
shorter than the range.
-/

namespace ConditionalAssignment.Indexed

/-! ## Assignments -/

theorem assignment_eq (target : Token) (body : List Token) :
    assignment (target :: body) =
      ofExcept (Statement.readAssignment target body) := by
  match body with
  | sign :: first :: others =>
      have long : ¬ (target :: sign :: first :: others).length < 3 := by
        simp only [List.length_cons]
        omega
      have sign_eq :
          item (target :: sign :: first :: others) 1 = .value sign :=
        rfl
      have body_eq :
          slice (target :: sign :: first :: others) 2
              (target :: sign :: first :: others).length =
            .value (first :: others) :=
        slice_from [target, sign] (first :: others)
      have value_eq :
          expressionFrom sign.position (first :: others) .value 0 =
            ofExcept
              (Expression.ofTokens sign.position (first :: others)) :=
        expressionFrom_eq sign.position .value [] (first :: others)
      unfold assignment Statement.readAssignment
      rw [item_zero, value_bind, if_neg long, sign_eq, value_bind]
      by_cases isSign : sign.kind = .assignment
      · by_cases isName : target.kind = .identifier
        · simp only [isSign, isName, ne_eq, not_true_eq_false, if_false,
            body_eq, value_bind, value_eq, ofExcept_bind]
          rfl
        · simp only [isSign, isName, ne_eq, not_true_eq_false, if_false,
            not_false_eq_true, if_true]
          rfl
      · simp only [isSign, ne_eq, not_false_eq_true, if_true]
        rfl
  | [] => rfl
  | [_] => rfl

/-! ## The extent of a statement -/

theorem blockFrom_eq (front behind : List Token) :
    blockFrom (front ++ behind) front.length =
      .value (front ++ (Chunk.splitBehindDelimiter behind).1) := by
  unfold blockFrom Chunk.splitBehindDelimiter
  rw [slice_from, value_bind, findIdx?_eq]
  cases found : Cut.atFirst? Token.isDelimiter behind with
  | none => rfl
  | some cut =>
      obtain ⟨rfl, _⟩ := Cut.atFirst?_eq_some_iff.mp found
      apply @slice_eq _ _ [] (front ++ (cut.before ++ [cut.pivot])) cut.after
      · simp [Cut.whole]
      · rfl
      · simp only [List.length_append, List.length_cons, List.length_nil]
        omega

/-- The block that is found by index is the one that a chunk is cut at, since
neither search looks for a first token that is no delimiter. -/
theorem block_eq
    {first : Token}
    (noDelimiter : first.isDelimiter = false)
    (others : List Token) :
    block (first :: others) =
      .value (first :: (Chunk.splitBlock others).1) := by
  unfold block Chunk.splitBlock
  rw [lastIndex?_eq, Cut.atLast?]
  cases found : Cut.atLast? (Token.isKeyword · .elseWord) others with
  | some cut =>
      obtain ⟨rfl, _⟩ := Cut.atLast?_eq_some_iff.mp found
      have blockRead :=
        blockFrom_eq (first :: (cut.before ++ [cut.pivot])) cut.after
      simpa [Cut.whole, Cut.cons] using blockRead
  | none =>
      dsimp only
      by_cases isElse : first.isKeyword .elseWord = true
      · rw [if_pos isElse]
        exact blockFrom_eq [first] others
      · rw [if_neg isElse]
        have blockRead := blockFrom_eq [] (first :: others)
        have split_eq :
            (Chunk.splitBehindDelimiter (first :: others)).1 =
              first :: (Chunk.splitBehindDelimiter others).1 := by
          unfold Chunk.splitBehindDelimiter
          rw [Cut.atFirst?, noDelimiter]
          cases Cut.atFirst? Token.isDelimiter others <;> rfl
        rw [split_eq] at blockRead
        exact blockRead

theorem headEnd?_cons
    {first : Token}
    (noDelimiter : first.isDelimiter = false)
    (termination : Termination)
    (others : List Token) :
    headEnd? termination (first :: others) =
      match Cut.atFirst? Token.isDelimiter others, termination with
      | some cut, _ => some (first :: cut.before).length
      | none, .implied => some (first :: others).length
      | none, .required => none := by
  unfold headEnd?
  rw [findIdx?_eq, Cut.atFirst?, noDelimiter]
  cases Cut.atFirst? Token.isDelimiter others with
  | some cut => rfl
  | none => cases termination <;> rfl

/-- If a range has no chunk, the step that reads it by index fails alike. -/
theorem rangeStep_of_error
    {termination : Termination}
    {first : Token}
    {others : List Token}
    {error : ParseError}
    (found : Chunk.ofRange termination first others = .error error)
    (read : RangeReader) :
    rangeStep read termination (first :: others) = .error error := by
  unfold Chunk.ofRange at found
  cases isDelimiter : first.isDelimiter with
  | true =>
      rw [if_pos isDelimiter] at found
      cases found
      have end_eq : headEnd? termination (first :: others) = some 0 := by
        unfold headEnd?
        rw [List.findIdx?_cons, if_pos isDelimiter]
      have head_eq : slice (first :: others) 0 0 = .value [] :=
        slice_to [] (first :: others)
      unfold rangeStep
      rw [List.head?_cons]
      dsimp only
      rw [end_eq]
      dsimp only
      rw [head_eq, value_bind]
      rfl
  | false =>
      rw [isDelimiter, if_neg Bool.false_ne_true] at found
      cases firstCut : Cut.atFirst? Token.isDelimiter others with
      | some cut =>
          rw [firstCut] at found
          cases found
      | none =>
          rw [firstCut] at found
          cases termination with
          | implied => cases found
          | required =>
              cases found
              unfold rangeStep
              rw [List.head?_cons]
              dsimp only
              rw [headEnd?_cons isDelimiter, firstCut]

/-- The tokens up to the end of the first statement decide of which kind its
chunk is, and they are the chunk of an assignment. -/
theorem head_of_ofRange
    {termination : Termination}
    {first : Token}
    {others : List Token}
    {chunk : Chunk}
    (found : Chunk.ofRange termination first others = .ok chunk) :
    first.isDelimiter = false ∧
      ∃ stop head,
        headEnd? termination (first :: others) = some stop ∧
          slice (first :: others) 0 stop = .value (first :: head) ∧
            (first :: head).any Token.isReserved = chunk.isConditional ∧
              (chunk.isConditional = false →
                head = chunk.body ∧
                  slice (first :: others)
                      (min (stop + 1) (first :: others).length)
                      (first :: others).length =
                    .value chunk.rest) := by
  have ofHead_eq (head rest : List Token) :
      (first :: head).any Token.isReserved =
          (Chunk.ofHead first others head rest).isConditional ∧
        ((Chunk.ofHead first others head rest).isConditional = false →
          head = (Chunk.ofHead first others head rest).body ∧
            rest = (Chunk.ofHead first others head rest).rest) := by
    unfold Chunk.ofHead
    split
    · rename_i isReserved
      exact ⟨isReserved, fun impossible => by cases impossible⟩
    · rename_i notReserved
      exact ⟨eq_false_of_ne_true notReserved, fun _ => ⟨rfl, rfl⟩⟩
  unfold Chunk.ofRange at found
  cases isDelimiter : first.isDelimiter with
  | true =>
      rw [if_pos isDelimiter] at found
      cases found
  | false =>
      rw [isDelimiter, if_neg Bool.false_ne_true] at found
      have end_eq := headEnd?_cons isDelimiter termination others
      cases firstCut : Cut.atFirst? Token.isDelimiter others with
      | some cut =>
          rw [firstCut] at found end_eq
          cases found
          obtain ⟨rfl, _⟩ := Cut.atFirst?_eq_some_iff.mp firstCut
          obtain ⟨any_eq, parts_eq⟩ := ofHead_eq cut.before cut.after
          have rest_eq :
              slice (first :: cut.whole)
                  (min ((first :: cut.before).length + 1)
                    (first :: cut.whole).length)
                  (first :: cut.whole).length =
                .value cut.after := by
            have fits :
                (first :: cut.before).length + 1 ≤
                  (first :: cut.whole).length := by
              have shorter := cut.length_before_lt
              simp only [List.length_cons]
              omega
            rw [Nat.min_eq_left fits]
            exact slice_behind (first :: cut.before) cut.after cut.pivot
          refine ⟨rfl, _, cut.before, end_eq,
            slice_to (first :: cut.before) (cut.pivot :: cut.after), any_eq, ?_⟩
          intro isAssignment
          obtain ⟨body_eq, rest_of⟩ := parts_eq isAssignment
          exact ⟨body_eq, rest_of ▸ rest_eq⟩
      | none =>
          rw [firstCut] at found end_eq
          cases termination with
          | required => cases found
          | implied =>
              cases found
              obtain ⟨any_eq, parts_eq⟩ := ofHead_eq others []
              have whole_eq := slice_to (first :: others) []
              have rest_eq := slice_from (first :: others) []
              rw [List.append_nil] at whole_eq rest_eq
              refine ⟨rfl, _, others, end_eq, whole_eq, any_eq, ?_⟩
              intro isAssignment
              obtain ⟨body_eq, rest_of⟩ := parts_eq isAssignment
              rw [Nat.min_eq_right (Nat.le_succ _)]
              exact ⟨body_eq, rest_of ▸ rest_eq⟩

/-! ## Ranges -/

/-- A branch is read by index as it is read, if its tokens are. -/
theorem branch_eq
    {read : RangeReader}
    {termination : Termination}
    {clause : Clause}
    (agrees :
      read termination clause.body =
        ofExcept (Statement.readRange termination clause.body).outcome) :
    branch read termination clause =
      ofExcept (do
        clause.check
        (Statement.readRange termination clause.body).outcome) := by
  rw [branch, agrees, ofExcept_bind]

/-- A block and the range behind it are read by index as they are read, if
the branches are. -/
theorem blockOutcome_eq
    {read : RangeReader}
    {termination : Termination}
    {first : Token}
    {body : List Token}
    {rest : Except ParseError (List Statement)}
    (agrees : ∀ mode part, part.length < body.length →
      read mode part = ofExcept (Statement.readRange mode part).outcome) :
    (do
      let statement ← conditional read termination (first :: body)
      let statements ← ofExcept rest
      return statement :: statements) =
      ofExcept (Statement.blockOutcome termination first body rest) := by
  rw [conditional_eq, Statement.blockOutcome]
  cases found : Clauses.ofBlock first body with
  | error error => rfl
  | ok clauses =>
      obtain ⟨thenShorter, elseShorter⟩ := Clauses.length_body_lt found
      obtain ⟨condition, consequent, alternative⟩ := clauses
      have then_eq (mode : Termination) :=
        branch_eq (agrees mode consequent.body thenShorter)
      cases alternative with
      | none =>
          simp only [then_eq, ofExcept_bind, ofExcept_map, bind_assoc,
            pure_eq, value_bind]
      | some alternative =>
          have else_eq :=
            branch_eq
              (agrees termination alternative.body (elseShorter _ rfl))
          simp only [then_eq, else_eq, ofExcept_bind, ofExcept_map, bind_assoc,
            pure_eq, value_bind]

/-- A step reads a range as it is read, if it goes on with a reader that reads
shorter ranges so. -/
theorem rangeStep_eq
    {read : RangeReader}
    {termination : Termination}
    {tokens : List Token}
    (agrees : ∀ mode part, part.length < tokens.length →
      read mode part = ofExcept (Statement.readRange mode part).outcome) :
    rangeStep read termination tokens =
      ofExcept (Statement.readRange termination tokens).outcome := by
  cases tokens with
  | nil =>
      rw [Statement.outcome_readRange_nil]
      rfl
  | cons first others =>
      cases found : Chunk.ofRange termination first others with
      | error error =>
          rw [rangeStep_of_error found,
            Statement.outcome_readRange_of_error found]
          rfl
      | ok chunk =>
          obtain ⟨noDelimiter, stop, head, end_eq, head_eq, any_eq, parts_eq⟩ :=
            head_of_ofRange found
          have restAgrees :=
            agrees termination chunk.rest (Chunk.length_rest_lt found)
          have bodyShorter := Chunk.length_body_lt found
          obtain ⟨isConditional, body, rest⟩ := chunk
          unfold rangeStep
          rw [List.head?_cons]
          dsimp only
          rw [end_eq]
          dsimp only
          rw [head_eq, value_bind, any_eq]
          cases isConditional with
          | false =>
              obtain ⟨rfl, rest_eq⟩ := parts_eq rfl
              simp only [List.isEmpty_cons, Bool.false_eq_true, if_false]
              rw [assignment_eq, Statement.outcome_readRange_of_assignment found]
              simp only [rest_eq, value_bind, restAgrees, ofExcept_bind,
                ofExcept_map, pure_eq]
          | true =>
              have split_eq : Chunk.splitBlock others = (body, rest) :=
                Chunk.eq_of_ofRange found
              have block_eq := block_eq noDelimiter others
              have whole_eq := Chunk.append_splitBlock others
              rw [split_eq] at block_eq whole_eq
              subst whole_eq
              have rest_eq := slice_from (first :: body) rest
              have branchAgrees (mode : Termination) (part : List Token)
                  (shorter : part.length < body.length) :=
                agrees mode part (Nat.lt_trans shorter bodyShorter)
              simp only [List.isEmpty_cons, Bool.false_eq_true, if_false,
                if_true]
              rw [block_eq, value_bind,
                Statement.outcome_readRange_of_block found,
                ← blockOutcome_eq branchAgrees]
              simp only [List.cons_append] at rest_eq
              simp only [rest_eq, value_bind, restAgrees]

/-- A range is read by index as it is read. -/
theorem range_eq (termination : Termination) (tokens : List Token) :
    range termination tokens =
      ofExcept (Statement.readRange termination tokens).outcome := by
  induction length_eq : tokens.length using Nat.strongRecOn
    generalizing termination tokens with
  | ind length inductionHypothesis =>
      subst length_eq
      rw [range]
      apply rangeStep_eq
      intro mode part shorter
      rw [dif_pos shorter]
      exact inductionHypothesis _ shorter mode part rfl

end ConditionalAssignment.Indexed

namespace ConditionalAssignment.Program

theorem readIndexed_eq (tokens : List Token) :
    readIndexed tokens = .ofExcept (ofTokens tokens) := by
  rw [readIndexed, Indexed.range_eq, ofTokens, traceTokens,
    Traced.outcome_map, Indexed.ofExcept_map]
  rfl

/-- Whatever the tokens are, reading them by index goes wrong at no index, no
counter and no repetition, and it gives what reading them gives. -/
theorem readIndexed_never_faults (tokens : List Token) :
    (∀ cause, readIndexed tokens ≠ .fault cause) ∧
      readIndexed tokens = .ofExcept (ofTokens tokens) := by
  constructor
  · intro cause
    rw [readIndexed_eq]
    exact Indexed.ofExcept_ne_fault _ cause
  · exact readIndexed_eq tokens

end ConditionalAssignment.Program
