import ConditionalAssignment.Proofs.Grammar.Expression
import ConditionalAssignment.Proofs.Indexed.Search

/-!
# Expressions by index

Reading an expression by index goes over its tokens from left to right, and what
is still to be read is what stands behind the index.  A group is closed at an
index that counting finds; its inside is shorter than the whole, and reading
goes on behind it.
-/

namespace ConditionalAssignment.Indexed

/-! ## Groups -/

/-- Counting finds the index of the bracket that a cut is made at. -/
theorem closeFrom_eq
    (opening : Token)
    (depth index : Nat)
    (tokens : List Token) :
    closeFrom opening (depth + 1) index tokens =
      match Cut.atClose? depth tokens with
      | none => .error (.blame opening (.unclosedBracket opening.text))
      | some cut =>
          if cut.pivot.text.toList.head? = Expression.closingOf opening then
            .value (index + cut.before.length)
          else
            .error
              (.blame cut.pivot
                (.mismatchedBracket opening.text cut.pivot.text)) := by
  induction tokens generalizing depth index with
  | nil => rfl
  | cons token rest inductionHypothesis =>
      have deeper (inner : Nat) :
          closeFrom opening (inner + 1) (index + 1) rest =
            match (Cut.atClose? inner rest).map (Cut.cons token) with
            | none => .error (.blame opening (.unclosedBracket opening.text))
            | some cut =>
                if cut.pivot.text.toList.head? =
                    Expression.closingOf opening then
                  .value (index + cut.before.length)
                else
                  .error
                    (.blame cut.pivot
                      (.mismatchedBracket opening.text cut.pivot.text)) := by
        rw [inductionHypothesis]
        cases Cut.atClose? inner rest with
        | none => rfl
        | some cut =>
            have length_eq :
                index + 1 + cut.before.length =
                  index + (cut.cons token).before.length := by
              simp only [Cut.cons, List.length_cons]
              omega
            simp only [Option.map_some, length_eq]
            rfl
      rw [closeFrom.eq_def, Cut.atClose?.eq_def]
      dsimp only
      cases kind_eq : token.kind with
      | openBracket => exact deeper (depth + 1)
      | closeBracket =>
          cases depth with
          | zero => rfl
          | succ outer => exact deeper outer
      | _ => exact deeper depth

theorem matchingClose_eq
    {opening : Token}
    (isOpening : opening.kind = .openBracket)
    (front rest : List Token) :
    matchingClose (front ++ opening :: rest) front.length =
      ofExcept
        ((Expression.closeGroup opening rest).map fun cut =>
          front.length + 1 + cut.before.length) := by
  unfold matchingClose Expression.closeGroup
  rw [item_eq rfl rfl, value_bind, List.drop_left, closeFrom]
  simp only [isOpening]
  rw [closeFrom_eq]
  cases Cut.atClose? 0 rest with
  | none => rfl
  | some cut =>
      dsimp only
      split <;> rfl

/-- At a token that opens nothing, the count would fall below zero. -/
example :
    matchingClose [⟨.closeBracket, ")", .origin⟩] 0 = .fault .underflow :=
  rfl

/-! ## Terms -/

@[simp] theorem lastPlace_append_singleton
    (anchor : Position)
    (front : List Token)
    (token : Token) :
    lastPlace anchor (front ++ [token]) = token.position := by
  simp [lastPlace]

section

variable
  {expectation : Expression.Expectation}
  {token : Token}
  (anchor : Position)
  (front rest : List Token)

/-- Behind a token that is expected, reading goes on with the token in front. -/
theorem expressionFrom_operand
    {operand : Operand}
    (word_eq : token.word = operand.word) :
    expressionFrom anchor (front ++ token :: rest) .value front.length =
      (do
        let terms ←
          expressionFrom anchor ((front ++ [token]) ++ rest) .operator
            (front ++ [token]).length
        return .operand operand :: terms) := by
  have inside : front.length < (front ++ token :: rest).length := by simp
  have isOperand := Operand.ofToken?_eq_some_iff.mpr word_eq
  unfold Operand.ofToken? at isOperand
  have length_eq : (front ++ [token]).length = front.length + 1 := by simp
  rw [List.append_assoc, List.singleton_append, length_eq,
    expressionFrom.eq_def, dif_pos inside, item_eq rfl rfl, value_bind]
  split at isOperand
  · rename_i kind_eq
    cases isOperand
    simp only [kind_eq]
  · rename_i kind_eq
    cases isOperand
    simp only [kind_eq]
  · cases isOperand

theorem expressionFrom_arithmetic
    (isArithmetic : token.kind = .arithmetic) :
    expressionFrom anchor (front ++ token :: rest) .operator front.length =
      (do
        let terms ←
          expressionFrom anchor ((front ++ [token]) ++ rest) .value
            (front ++ [token]).length
        match ArithmeticOperator.ofSymbol? token.text with
        | some operator => return .operator operator :: terms
        | none => return terms) := by
  have inside : front.length < (front ++ token :: rest).length := by simp
  have length_eq : (front ++ [token]).length = front.length + 1 := by simp
  have reading :=
    expressionFrom.eq_def anchor (front ++ token :: rest) .operator front.length
  rw [dif_pos inside, item_eq rfl rfl, value_bind] at reading
  simp only [isArithmetic] at reading
  rw [List.append_assoc, List.singleton_append, length_eq]
  exact reading

theorem expressionFrom_misplaced
    {fault : ParseFault}
    (misplaced : Expression.misplacedFault? expectation token = some fault) :
    expressionFrom anchor (front ++ token :: rest) expectation front.length =
      .error (.blame token fault) := by
  have inside : front.length < (front ++ token :: rest).length := by simp
  rw [expressionFrom.eq_def, dif_pos inside, item_eq rfl rfl, value_bind]
  unfold Expression.misplacedFault? at misplaced
  split at misplaced <;> simp_all

end

/-- The checks at a group pass: its inside is shorter, and reading goes on behind
its closing bracket. -/
theorem expressionFrom_openBracket
    {opening : Token}
    {rest : List Token}
    {cut : Cut Token}
    (isOpening : opening.kind = .openBracket)
    (closed : Expression.closeGroup opening rest = .ok cut)
    (anchor : Position)
    (expectation : Expression.Expectation)
    (front : List Token) :
    expressionFrom anchor (front ++ opening :: rest) expectation front.length =
      (do
        let inner ← expressionFrom opening.position cut.before .value 0
        let terms ←
          expressionFrom anchor
            ((front ++ opening :: cut.before ++ [cut.pivot]) ++ cut.after)
            .operator (front ++ opening :: cut.before ++ [cut.pivot]).length
        return .group ((Bracket.ofSpelling? opening.text).getD .round) inner
          :: terms) := by
  obtain rfl : cut.whole = rest := Expression.whole_of_closeGroup closed
  have inside : front.length < (front ++ opening :: cut.whole).length := by
    simp
  have before_eq :
      front ++ opening :: cut.whole =
        (front ++ [opening]) ++ (cut.before ++ cut.pivot :: cut.after) := by
    simp [Cut.whole]
  have after_eq :
      front ++ opening :: cut.whole =
        (front ++ opening :: cut.before ++ [cut.pivot]) ++ cut.after := by
    simp [Cut.whole]
  have behind_eq :
      front.length + 1 + cut.before.length + 1 =
        (front ++ opening :: cut.before ++ [cut.pivot]).length := by
    simp only [List.length_append, List.length_cons, List.length_nil]
    omega
  have shorter :
      cut.before.length < (front ++ opening :: cut.whole).length := by
    have beforeShorter := cut.length_before_lt
    simp only [List.length_append, List.length_cons]
    omega
  have further : front.length < front.length + 1 + cut.before.length + 1 := by
    omega
  rw [expressionFrom.eq_def, dif_pos inside, item_eq rfl rfl, value_bind]
  simp only [isOpening]
  rw [matchingClose_eq isOpening, closed]
  simp only [Except.map, ofExcept_ok, value_bind]
  rw [slice_eq before_eq (by simp) (by simp), value_bind, dif_pos shorter]
  simp only [dif_pos further]
  rw [behind_eq, after_eq]

theorem expressionFrom_unclosed
    {opening : Token}
    {rest : List Token}
    {error : ParseError}
    (isOpening : opening.kind = .openBracket)
    (failed : Expression.closeGroup opening rest = .error error)
    (anchor : Position)
    (expectation : Expression.Expectation)
    (front : List Token) :
    expressionFrom anchor (front ++ opening :: rest) expectation front.length =
      .error error := by
  have inside : front.length < (front ++ opening :: rest).length := by simp
  rw [expressionFrom.eq_def, dif_pos inside, item_eq rfl rfl, value_bind]
  simp only [isOpening]
  rw [matchingClose_eq isOpening, failed]
  rfl

/-- An expression is read by index as the rest behind the index is. -/
theorem expressionFrom_eq
    (anchor : Position)
    (expectation : Expression.Expectation)
    (front rest : List Token) :
    expressionFrom anchor (front ++ rest) expectation front.length =
      ofExcept
        (Expression.readFrom expectation (lastPlace anchor front) rest) := by
  generalize place_eq : lastPlace anchor front = place
  induction expectation, place, rest using Expression.readFrom_induction
    generalizing anchor front with
  | finish expectation place =>
      subst place_eq
      rw [List.append_nil, expressionFrom.eq_def, dif_neg (Nat.lt_irrefl _),
        Expression.readFrom.eq_def]
      cases expectation <;> rfl
  | operand place token rest operand word_eq inductionHypothesis =>
      have restRead := inductionHypothesis anchor (front ++ [token])
        (lastPlace_append_singleton _ _ _)
      rw [expressionFrom_operand _ _ _ word_eq, restRead,
        Expression.readFrom_operand word_eq, ofExcept_map]
      rfl
  | operator place token rest isArithmetic inductionHypothesis =>
      have restRead := inductionHypothesis anchor (front ++ [token])
        (lastPlace_append_singleton _ _ _)
      rw [expressionFrom_arithmetic _ _ _ isArithmetic, restRead,
        Expression.readFrom_arithmetic isArithmetic, ofExcept_map]
      cases ArithmeticOperator.ofSymbol? token.text <;> rfl
  | misplaced expectation place token rest fault misplaced =>
      rw [expressionFrom_misplaced _ _ _ misplaced,
        Expression.readFrom_misplaced misplaced, ofExcept_error]
  | unclosed expectation place token rest error isOpening failed =>
      rw [expressionFrom_unclosed isOpening failed,
        Expression.readFrom_openBracket isOpening, failed]
      rfl
  | group expectation place token rest cut isOpening closed innerHypothesis
      restHypothesis =>
      have innerRead :
          expressionFrom token.position cut.before .value 0 =
            ofExcept
              (Expression.readFrom .value token.position cut.before) :=
        innerHypothesis token.position [] rfl
      have restRead :=
        restHypothesis anchor (front ++ token :: cut.before ++ [cut.pivot])
          (lastPlace_append_singleton _ _ _)
      rw [expressionFrom_openBracket isOpening closed, innerRead, restRead,
        Expression.readFrom_openBracket isOpening, closed]
      simp only [ofExcept_bind, ofExcept_ok, value_bind]
      rfl

end ConditionalAssignment.Indexed
