import ConditionalAssignment.Proofs.Grammar.Chunk
import ConditionalAssignment.Proofs.Indexed.Search

/-!
# Conditionals by index

A block is read by index between its first token, its first `then` and its last
`else`.  These stand in this order, or there is an error instead, so the parts
between them are the parts that the block is cut into.  The reader of branches is
arbitrary here.
-/

namespace ConditionalAssignment.Indexed

/-! ## Branches -/

theorem branches_single
    (read : RangeReader)
    (termination : Termination)
    (condition : Comparison)
    (front body : List Token)
    (thenToken : Token) :
    branches read termination (front ++ thenToken :: body) condition
        front.length none =
      (do
        let thenBranch ←
          branch read termination ⟨.thenWord, thenToken.position, body⟩
        return .conditional condition thenBranch none) := by
  unfold branches
  rw [item_eq rfl rfl, value_bind]
  dsimp only
  rw [slice_behind, value_bind]

theorem branches_choice
    (read : RangeReader)
    (termination : Termination)
    (condition : Comparison)
    (front thenBody elseBody : List Token)
    (thenToken elseToken : Token) :
    branches read termination
        (front ++ thenToken :: (thenBody ++ elseToken :: elseBody)) condition
        front.length (some (front ++ thenToken :: thenBody).length) =
      (do
        let thenBranch ←
          branch read .implied ⟨.thenWord, thenToken.position, thenBody⟩
        let elseBranch ←
          branch read termination ⟨.elseWord, elseToken.position, elseBody⟩
        return .conditional condition thenBranch (some elseBranch)) := by
  have whole_eq :
      front ++ thenToken :: (thenBody ++ elseToken :: elseBody) =
        (front ++ thenToken :: thenBody) ++ elseToken :: elseBody := by
    simp
  have thenBody_eq :
      slice (front ++ thenToken :: (thenBody ++ elseToken :: elseBody))
          (front.length + 1) (front ++ thenToken :: thenBody).length =
        .value thenBody := by
    apply @slice_eq _ _ (front ++ [thenToken]) thenBody (elseToken :: elseBody)
    · simp
    · simp
    · simp only [List.length_append, List.length_cons, List.length_nil]
      omega
  have else_eq :
      item (front ++ thenToken :: (thenBody ++ elseToken :: elseBody))
          (front ++ thenToken :: thenBody).length =
        .value elseToken :=
    item_eq whole_eq rfl
  have elseBody_eq :
      slice (front ++ thenToken :: (thenBody ++ elseToken :: elseBody))
          ((front ++ thenToken :: thenBody).length + 1)
          (front ++ thenToken :: (thenBody ++ elseToken :: elseBody)).length =
        .value elseBody := by
    rw [whole_eq]
    exact slice_behind _ _ _
  unfold branches
  rw [item_eq rfl rfl, value_bind]
  dsimp only
  rw [else_eq, value_bind, thenBody_eq, value_bind]
  simp only [elseBody_eq, value_bind]

/-! ## Blocks -/

section

variable
  {first thenToken : Token}
  {condition behind : List Token}
  (isIf : first.isKeyword .ifWord = true)
  (isThen : thenToken.isKeyword .thenWord = true)
  (conditionFails : ∀ token ∈ condition, token.isKeyword .thenWord = false)
  (read : RangeReader)
  (termination : Termination)

include isIf isThen conditionFails

/-- Behind the first `then`, only the last `else` is looked for. -/
theorem conditional_of_then :
    conditional read termination (first :: (condition ++ thenToken :: behind)) =
      (match
        (lastIndex? (Token.isKeyword · .elseWord)
          (first :: (condition ++ thenToken :: behind))).filter
            (· < (first :: condition).length) with
      | some index => do
          let misplaced ←
            item (first :: (condition ++ thenToken :: behind)) index
          .error (.blame misplaced .misplacedElse)
      | none => do
          let comparison ← ofExcept (Comparison.ofTokens first condition)
          branches read termination
            (first :: (condition ++ thenToken :: behind)) comparison
            (first :: condition).length
            (lastIndex? (Token.isKeyword · .elseWord)
              (first :: (condition ++ thenToken :: behind)))) := by
  have noThen : first.isKeyword .thenWord = false :=
    Token.isKeyword_eq_false_of_ne isIf (by simp)
  have then_eq :
      (first :: (condition ++ thenToken :: behind)).findIdx?
          (Token.isKeyword · .thenWord) =
        some (first :: condition).length :=
    findIdx?_eq_some rfl isThen
      (List.forall_mem_cons.mpr ⟨noThen, conditionFails⟩)
  have condition_eq :
      slice (first :: (condition ++ thenToken :: behind)) 1
          (first :: condition).length =
        .value condition :=
    @slice_eq _ _ [first] condition (thenToken :: behind) _ _ rfl rfl
      (Nat.add_comm _ _)
  have reading :=
    conditional.eq_def read termination
      (first :: (condition ++ thenToken :: behind))
  rw [item_zero, value_bind, if_pos isIf, then_eq] at reading
  dsimp only at reading
  rw [condition_eq, value_bind] at reading
  exact reading

theorem conditional_misplaced
    {before after : List Token}
    {elseToken : Token}
    (condition_eq : condition = before ++ elseToken :: after)
    (isElse : elseToken.isKeyword .elseWord = true)
    (afterFails : ∀ token ∈ after, token.isKeyword .elseWord = false)
    (behindFails : ∀ token ∈ behind, token.isKeyword .elseWord = false) :
    conditional read termination (first :: (condition ++ thenToken :: behind)) =
      .error (.blame elseToken .misplacedElse) := by
  have noElse : thenToken.isKeyword .elseWord = false :=
    Token.isKeyword_eq_false_of_ne isThen (by simp)
  have restFails :
      ∀ token ∈ after ++ thenToken :: behind,
        token.isKeyword .elseWord = false :=
    List.forall_mem_append.mpr
      ⟨afterFails, List.forall_mem_cons.mpr ⟨noElse, behindFails⟩⟩
  have block_eq :
      first :: (condition ++ thenToken :: behind) =
        (first :: before) ++ elseToken :: (after ++ thenToken :: behind) := by
    simp [condition_eq]
  have last_eq :
      lastIndex? (Token.isKeyword · .elseWord)
          (first :: (condition ++ thenToken :: behind)) =
        some (first :: before).length :=
    lastIndex?_eq_some block_eq isElse restFails
  have beforeThen : (first :: before).length < (first :: condition).length := by
    simp [condition_eq]
  rw [conditional_of_then isIf isThen conditionFails, last_eq,
    Option.filter_some, if_pos (decide_eq_true beforeThen)]
  dsimp only
  rw [item_eq block_eq rfl, value_bind]

theorem conditional_single
    (conditionLacks : ∀ token ∈ condition, token.isKeyword .elseWord = false)
    (behindFails : ∀ token ∈ behind, token.isKeyword .elseWord = false) :
    conditional read termination (first :: (condition ++ thenToken :: behind)) =
      (do
        let comparison ← ofExcept (Comparison.ofTokens first condition)
        let thenBranch ←
          branch read termination ⟨.thenWord, thenToken.position, behind⟩
        return .conditional comparison thenBranch none) := by
  have ifNoElse : first.isKeyword .elseWord = false :=
    Token.isKeyword_eq_false_of_ne isIf (by simp)
  have thenNoElse : thenToken.isKeyword .elseWord = false :=
    Token.isKeyword_eq_false_of_ne isThen (by simp)
  have blockFails :
      ∀ token ∈ first :: (condition ++ thenToken :: behind),
        token.isKeyword .elseWord = false := by
    rw [List.forall_mem_cons, List.forall_mem_append, List.forall_mem_cons]
    exact ⟨ifNoElse, conditionLacks, thenNoElse, behindFails⟩
  have branches_eq (comparison : Comparison) :=
    branches_single read termination comparison (first :: condition) behind
      thenToken
  rw [conditional_of_then isIf isThen conditionFails,
    lastIndex?_eq_none blockFails, Option.filter_none]
  dsimp only
  simp only [List.cons_append] at branches_eq
  simp only [branches_eq]

theorem conditional_choice
    {thenBody elseBody : List Token}
    {elseToken : Token}
    (behind_eq : behind = thenBody ++ elseToken :: elseBody)
    (isElse : elseToken.isKeyword .elseWord = true)
    (elseFails : ∀ token ∈ elseBody, token.isKeyword .elseWord = false) :
    conditional read termination (first :: (condition ++ thenToken :: behind)) =
      (do
        let comparison ← ofExcept (Comparison.ofTokens first condition)
        let thenBranch ←
          branch read .implied ⟨.thenWord, thenToken.position, thenBody⟩
        let elseBranch ←
          branch read termination ⟨.elseWord, elseToken.position, elseBody⟩
        return .conditional comparison thenBranch (some elseBranch)) := by
  subst behind_eq
  have last_eq :
      lastIndex? (Token.isKeyword · .elseWord)
          (first :: (condition ++ thenToken ::
            (thenBody ++ elseToken :: elseBody))) =
        some ((first :: condition) ++ thenToken :: thenBody).length :=
    lastIndex?_eq_some (by simp) isElse elseFails
  have behindThen :
      ¬ ((first :: condition) ++ thenToken :: thenBody).length <
        (first :: condition).length := by
    simp only [List.length_append]
    omega
  have branches_eq (comparison : Comparison) :=
    branches_choice read termination comparison (first :: condition) thenBody
      elseBody thenToken elseToken
  rw [conditional_of_then isIf isThen conditionFails, last_eq,
    Option.filter_some, if_neg (mt of_decide_eq_true behindThen)]
  dsimp only
  simp only [List.cons_append] at branches_eq
  simp only [List.cons_append, branches_eq]

end

/-- A conditional is read by index clause by clause. -/
theorem conditional_eq
    (read : RangeReader)
    (termination : Termination)
    (first : Token)
    (body : List Token) :
    conditional read termination (first :: body) =
      match Clauses.ofBlock first body with
      | .error failure => .error failure
      | .ok ⟨condition, consequent, none⟩ => do
          let condition ← ofExcept (Comparison.ofTokens first condition)
          let thenBranch ← branch read termination consequent
          return .conditional condition thenBranch none
      | .ok ⟨condition, consequent, some alternative⟩ => do
          let condition ← ofExcept (Comparison.ofTokens first condition)
          let thenBranch ← branch read .implied consequent
          let elseBranch ← branch read termination alternative
          return .conditional condition thenBranch (some elseBranch) := by
  unfold Clauses.ofBlock
  by_cases isIf : first.isKeyword .ifWord = true
  · rw [if_pos isIf]
    cases thenFound : Cut.atFirst? (Token.isKeyword · .thenWord) body with
    | none =>
        have noThen : first.isKeyword .thenWord = false :=
          Token.isKeyword_eq_false_of_ne isIf (by simp)
        have fails :
            ∀ token ∈ first :: body, token.isKeyword .thenWord = false :=
          List.forall_mem_cons.mpr
            ⟨noThen, Cut.atFirst?_eq_none_iff.mp thenFound⟩
        unfold conditional
        rw [item_zero, value_bind, if_pos isIf,
          List.findIdx?_eq_none_iff.mpr fails]
    | some thenCut =>
        obtain ⟨rfl, isThen, conditionFails⟩ :=
          Cut.atFirst?_eq_some_iff.mp thenFound
        dsimp only
        cases elseFound :
            Cut.atLast? (Token.isKeyword · .elseWord) thenCut.after with
        | some elseCut =>
            obtain ⟨after_eq, isElse, elseFails⟩ :=
              Cut.atLast?_eq_some_iff.mp elseFound
            exact conditional_choice isIf isThen conditionFails read termination
              after_eq isElse elseFails
        | none =>
            have behindFails := Cut.atLast?_eq_none_iff.mp elseFound
            dsimp only
            cases misplacedFound :
                Cut.atLast? (Token.isKeyword · .elseWord) thenCut.before with
            | some elseCut =>
                obtain ⟨before_eq, isElse, elseFails⟩ :=
                  Cut.atLast?_eq_some_iff.mp misplacedFound
                exact conditional_misplaced isIf isThen conditionFails read
                  termination before_eq isElse elseFails behindFails
            | none =>
                have conditionLacks :=
                  Cut.atLast?_eq_none_iff.mp misplacedFound
                exact conditional_single isIf isThen conditionFails read
                  termination conditionLacks behindFails
  · unfold conditional
    rw [if_neg isIf, item_zero, value_bind, if_neg isIf]

end ConditionalAssignment.Indexed
