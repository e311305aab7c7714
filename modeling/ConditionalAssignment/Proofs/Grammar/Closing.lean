import ConditionalAssignment.Proofs.Bracket.Fitting
import ConditionalAssignment.Proofs.Grammar.Blame
import ConditionalAssignment.Proofs.Grammar.Range

/-!
# Closing brackets that fit

Tokens whose closing brackets fit are read without a complaint about any of
them: the bracket that closes a group is of its family, and no expression runs
into a bracket that closes nothing.  Statements and branches are cut without
regard to brackets, so a part may leave groups open.  Each part still starts
where no group is open, since everything before it was read and is balanced.
-/

namespace ConditionalAssignment

/-- The error is no complaint about a closing bracket. -/
def ParseError.SparesClosing
    (tokens : List Token)
    (error : ParseError) : Prop :=
  match error.fault with
  | .mismatchedBracket _ _ => False
  | .unexpectedToken _ =>
      ∃ token ∈ tokens,
        token.kind ≠ .closeBracket ∧ error.position = some token.position
  | _ => True

theorem ParseError.SparesClosing.mono
    {part tokens : List Token}
    {error : ParseError}
    (spares : SparesClosing part error)
    (isPart : part ⊆ tokens) :
    SparesClosing tokens error := by
  unfold SparesClosing at spares ⊢
  split
  · rename_i fault_eq
    rw [fault_eq] at spares
    exact spares
  · rename_i fault_eq
    rw [fault_eq] at spares
    obtain ⟨token, member, blamed⟩ := spares
    exact ⟨token, isPart member, blamed⟩
  · trivial

/-- A reader fails only with errors that are no complaints about a closing
bracket. -/
abbrev SparesClosing
    {α : Type}
    (tokens : List Token)
    (outcome : Except ParseError α) : Prop :=
  FailsOnlyWith (ParseError.SparesClosing tokens) outcome

theorem SparesClosing.mono
    {α : Type}
    {part tokens : List Token}
    {outcome : Except ParseError α}
    (spares : SparesClosing part outcome)
    (isPart : part ⊆ tokens) :
    SparesClosing tokens outcome :=
  FailsOnlyWith.imp spares fun _ found => found.mono isPart

/-! ## Expressions -/

namespace Expression

variable {opening : Token} {rest : List Token}

/-- A group that is closed is closed by its own family, and both its inside and
what follows it fit. -/
theorem fits_of_atClose?
    {cut : Cut Token}
    (fits : FitsBehind [] (opening :: rest))
    (isOpening : opening.kind = .openBracket)
    (found : Cut.atClose? 0 rest = some cut) :
    FitsBehind [] cut.before ∧
      cut.pivot.text.toList.head? = closingOf opening ∧
        FitsBehind [] cut.after := by
  obtain ⟨bracket, opening_eq, restFits⟩ := fits.exists_opening isOpening
  obtain ⟨beforeFits, closing_eq, afterFits⟩ :=
    @FitsBehind.of_atClose? _ [] [] _ _ restFits found
  refine ⟨beforeFits, ?_, afterFits⟩
  have opening_text := congrArg Word.text opening_eq
  have closing_text := congrArg Word.text closing_eq
  rw [Token.text_word] at opening_text closing_text
  rw [closingOf, opening_text, closing_text]
  cases bracket <;> rfl

theorem closeGroup_sparesClosing
    (fits : FitsBehind [] (opening :: rest))
    (isOpening : opening.kind = .openBracket)
    (tokens : List Token) :
    SparesClosing tokens (closeGroup opening rest) := by
  unfold closeGroup
  split
  · exact .error trivial
  · rename_i cut found
    obtain ⟨_, closes, _⟩ := fits_of_atClose? fits isOpening found
    rw [if_pos closes]
    exact .ok _

theorem fits_of_closeGroup
    {cut : Cut Token}
    (fits : FitsBehind [] (opening :: rest))
    (isOpening : opening.kind = .openBracket)
    (closed : closeGroup opening rest = .ok cut) :
    FitsBehind [] cut.before ∧ FitsBehind [] cut.after := by
  unfold closeGroup at closed
  split at closed
  · cases closed
  · rename_i found
    obtain ⟨beforeFits, closes, afterFits⟩ :=
      fits_of_atClose? fits isOpening found
    rw [if_pos closes] at closed
    cases closed
    exact ⟨beforeFits, afterFits⟩

/-- An expression at whose start no group is open complains of no closing
bracket. -/
theorem readFrom_sparesClosing
    (expectation : Expectation)
    (anchor : Position)
    {tokens : List Token}
    (fits : FitsBehind [] tokens) :
    SparesClosing tokens (readFrom expectation anchor tokens) := by
  induction expectation, anchor, tokens using readFrom_induction with
  | finish expectation anchor =>
      rw [readFrom.eq_def]
      cases expectation with
      | value => exact .error trivial
      | operator => exact .ok _
  | operand anchor token rest operand word_eq inductionHypothesis =>
      obtain ⟨isNoOpening, isNoClosing⟩ := Operand.kind_ne_of_word_eq word_eq
      have restFits := fits.tail isNoOpening isNoClosing
      rw [readFrom_operand word_eq]
      exact ((inductionHypothesis restFits).mono
        (List.subset_cons_self _ _)).map _
  | operator anchor token rest isArithmetic inductionHypothesis =>
      have restFits :=
        fits.tail (by simp [isArithmetic]) (by simp [isArithmetic])
      rw [readFrom_arithmetic isArithmetic]
      exact ((inductionHypothesis restFits).mono
        (List.subset_cons_self _ _)).map _
  | misplaced expectation anchor token rest fault misplaced =>
      have noClosing : token.kind ≠ .closeBracket := by
        intro isClosing
        obtain ⟨_, _, _, impossible, _⟩ := fits.exists_closing isClosing
        cases impossible
      rw [readFrom_misplaced misplaced]
      rcases eq_of_misplacedFault? misplaced with rfl | rfl | rfl
      · exact .error trivial
      · exact .error trivial
      · exact .error ⟨token, .head _, noClosing, rfl⟩
  | unclosed expectation anchor token rest error isOpening failed =>
      have spares :=
        closeGroup_sparesClosing fits isOpening (token :: rest) error failed
      rw [readFrom_openBracket isOpening, failed]
      exact .error spares
  | group expectation anchor token rest cut isOpening closed innerHypothesis
      restHypothesis =>
      obtain ⟨beforeFits, afterFits⟩ :=
        fits_of_closeGroup fits isOpening closed
      have whole_eq := whole_of_closeGroup closed
      have innerPart : cut.before ⊆ token :: rest := by
        rw [← whole_eq]
        exact (cut.sublist_before_whole.cons _).subset
      have behindPart : cut.after ⊆ token :: rest := by
        rw [← whole_eq]
        exact (cut.sublist_after_whole.cons _).subset
      rw [readFrom_openBracket isOpening]
      apply (closeGroup_sparesClosing fits isOpening (token :: rest)).bind
      intro found found_eq
      rw [closed] at found_eq
      cases found_eq
      apply ((innerHypothesis beforeFits).mono innerPart).bind
      intro inner _
      apply ((restHypothesis afterFits).mono behindPart).bind
      intro terms _
      exact .ok _

end Expression

/-! ## The parts of a statement -/

section

variable (tokens : List Token)

theorem Operand.ofToken_sparesClosing (token : Token) :
    SparesClosing tokens (Operand.ofToken token) := by
  unfold Operand.ofToken
  split
  · exact .ok _
  · exact .error trivial

theorem ComparisonOperator.ofToken_sparesClosing (token : Token) :
    SparesClosing tokens (ComparisonOperator.ofToken token) := by
  unfold ComparisonOperator.ofToken
  dsimp only
  split
  · split
    · exact .ok _
    · exact .error trivial
  · exact .error trivial

theorem Comparison.ofTokens_sparesClosing (opening : Token) (part : List Token) :
    SparesClosing tokens (Comparison.ofTokens opening part) := by
  unfold Comparison.ofTokens
  split
  · apply (Operand.ofToken_sparesClosing tokens _).bind
    intro left _
    apply (ComparisonOperator.ofToken_sparesClosing tokens _).bind
    intro operator _
    apply (Operand.ofToken_sparesClosing tokens _).bind
    intro right _
    exact .ok _
  · exact .error trivial
  · exact .error trivial

theorem Chunk.ofRange_sparesClosing
    (termination : Termination)
    (first : Token)
    (others : List Token) :
    SparesClosing tokens (ofRange termination first others) := by
  unfold ofRange
  split
  · exact .error trivial
  · split
    · exact .ok _
    · split
      · exact .ok _
      · exact .error trivial

theorem Clause.check_sparesClosing (clause : Clause) :
    SparesClosing tokens clause.check := by
  unfold check
  split
  · exact .ok _
  · exact .error trivial

theorem Clauses.ofBlock_sparesClosing (first : Token) (body : List Token) :
    SparesClosing tokens (ofBlock first body) := by
  unfold ofBlock
  split
  · split
    · exact .error trivial
    · split
      · exact .ok _
      · split
        · exact .error trivial
        · exact .ok _
  · exact .error trivial

end

/-! ## Statements -/

namespace Statement

theorem readAssignment_sparesClosing
    {target : Token}
    {body : List Token}
    (fits : FitsBehind [] (target :: body)) :
    SparesClosing (target :: body) (readAssignment target body) := by
  unfold readAssignment
  split
  · rename_i sign first others
    split
    · exact .error trivial
    · rename_i isSign
      split
      · exact .error trivial
      · rename_i isName
        rw [ne_eq, Decidable.not_not] at isSign isName
        have signFits := fits.tail (by simp [isName]) (by simp [isName])
        have valueFits := signFits.tail (by simp [isSign]) (by simp [isSign])
        have valueSpares :=
          Expression.readFrom_sparesClosing .value sign.position valueFits
        apply (valueSpares.mono ?_).bind
        · intro value _
          exact .ok _
        · exact List.subset_cons_of_subset _ (List.subset_cons_self _ _)
  · exact .error trivial

/-- What follows an assignment that is read fits behind no group. -/
theorem fits_behind_assignment
    {termination : Termination}
    {target : Token}
    {body ending rest : List Token}
    {statement : Statement}
    (fits : FitsBehind [] (target :: (body ++ (ending ++ rest))))
    (read : readAssignment target body = .ok statement)
    (ends : Ends termination (ending.map Token.word) (rest.map Token.word)) :
    FitsBehind [] rest := by
  obtain ⟨name, sign, words, value, words_eq, valueReads, _⟩ :=
    readAssignment_eq_ok_iff.mp read
  have simpleReads :
      ReadsSimple ((target :: body).map Token.word)
        (.assignment name value) := by
    rw [words_eq]
    exact .assignment valueReads
  rw [← List.cons_append] at fits
  have behindFits :=
    fits.behind (simpleReads.balanced fits.of_append.valid_words)
  exact behindFits.behind (ends.balanced behindFits.of_append.valid_words)

/-- What follows the condition of a block and the word behind it fits behind no
group. -/
theorem fits_behind_condition
    {first thenToken : Token}
    {conditionTokens rest : List Token}
    {condition : Comparison}
    (fits : FitsBehind [] (first :: (conditionTokens ++ thenToken :: rest)))
    (isIf : first.kind = .keyword .ifWord)
    (isThen : thenToken.kind = .keyword .thenWord)
    (read : Comparison.ofTokens first conditionTokens = .ok condition) :
    FitsBehind [] rest := by
  have words_eq := Comparison.ofTokens_eq_ok_iff.mp read
  have conditionFits := fits.tail (by simp [isIf]) (by simp [isIf])
  have conditionValid := conditionFits.of_append.valid_words
  rw [words_eq] at conditionValid
  have thenFits := conditionFits.behind
    (words_eq ▸ Comparison.balanced_words conditionValid)
  exact thenFits.tail (by simp [isThen]) (by simp [isThen])

/-- What follows a range that is read fits behind no group. -/
theorem fits_behind_range
    {termination : Termination}
    {branch rest : List Token}
    {statements : List Statement}
    (fits : FitsBehind [] (branch ++ rest))
    (read : (readRange termination branch).outcome = .ok statements) :
    FitsBehind [] rest := by
  have reads := outcome_readRange_eq_ok_iff.mp read
  exact fits.behind (reads.balanced fits.of_append.valid_words)

/-- A block complains of no closing bracket if its branches and the rest do
not. -/
theorem blockOutcome_sparesClosing
    {termination : Termination}
    {first : Token}
    {body rest : List Token}
    (fits : FitsBehind [] (first :: (body ++ rest)))
    (branchSpares : ∀ mode part, part.length < body.length →
      FitsBehind [] part → SparesClosing part (readRange mode part).outcome)
    (restSpares : FitsBehind [] rest →
      SparesClosing rest (readRange termination rest).outcome) :
    SparesClosing (first :: (body ++ rest))
      (blockOutcome termination first body
        (readRange termination rest).outcome) := by
  have bodyPart : body ⊆ first :: (body ++ rest) :=
    List.subset_cons_of_subset _ (List.subset_append_left _ _)
  have restPart : rest ⊆ first :: (body ++ rest) :=
    List.subset_cons_of_subset _ (List.subset_append_right _ _)
  unfold blockOutcome
  cases found : Clauses.ofBlock first body with
  | error error =>
      have spares := Clauses.ofBlock_sparesClosing (first :: (body ++ rest))
        first body error found
      exact .error spares
  | ok clauses =>
      obtain ⟨conditionTokens, consequent, alternative⟩ := clauses
      obtain ⟨isIf, thenToken, isThen, parts⟩ := Clauses.eq_of_ofBlock found
      obtain ⟨thenShorter, elseShorter⟩ := Clauses.length_body_lt found
      obtain ⟨_, thenPart, elsePart⟩ := Clauses.isPart_of_ofBlock found
      have thenSubset := List.Subset.trans thenPart.1.subset bodyPart
      cases alternative with
      | none =>
          obtain ⟨rfl, _⟩ := parts
          rw [List.append_assoc, List.cons_append] at fits
          apply (Comparison.ofTokens_sparesClosing _ _ _).bind
          intro condition conditionRead
          have thenFits := fits_behind_condition fits isIf isThen conditionRead
          apply (Clause.check_sparesClosing _ _).bind
          intro _ _
          have thenSpares :=
            branchSpares termination _ thenShorter thenFits.of_append
          apply (thenSpares.mono thenSubset).bind
          intro thenBranch thenRead
          have restFits := fits_behind_range thenFits thenRead
          exact ((restSpares restFits).mono restPart).map _
      | some alternative =>
          obtain ⟨elseToken, isElse, rfl, _⟩ := parts
          simp only [List.append_assoc, List.cons_append] at fits
          apply (Comparison.ofTokens_sparesClosing _ _ _).bind
          intro condition conditionRead
          have thenFits := fits_behind_condition fits isIf isThen conditionRead
          apply (Clause.check_sparesClosing _ _).bind
          intro _ _
          have thenSpares :=
            branchSpares .implied _ thenShorter thenFits.of_append
          apply (thenSpares.mono thenSubset).bind
          intro thenBranch thenRead
          have elseWordFits := fits_behind_range thenFits thenRead
          have elseFits :=
            elseWordFits.tail (by simp [isElse]) (by simp [isElse])
          apply (Clause.check_sparesClosing _ _).bind
          intro _ _
          have elseSpares :=
            branchSpares termination _ (elseShorter alternative rfl)
              elseFits.of_append
          have elseSubset :=
            List.Subset.trans (elsePart alternative rfl).1.subset bodyPart
          apply (elseSpares.mono elseSubset).bind
          intro elseBranch elseRead
          have restFits := fits_behind_range elseFits elseRead
          exact ((restSpares restFits).mono restPart).map _

/-- A range at whose start no group is open complains of no closing
bracket. -/
theorem readRange_sparesClosing
    (termination : Termination)
    {tokens : List Token}
    (fits : FitsBehind [] tokens) :
    SparesClosing tokens (readRange termination tokens).outcome := by
  induction termination, tokens using readRange_induction with
  | nil termination =>
      rw [outcome_readRange_nil]
      exact .ok _
  | error termination first others error found =>
      have spares := Chunk.ofRange_sparesClosing (first :: others)
        termination first others error found
      rw [outcome_readRange_of_error found]
      exact .error spares
  | assignment termination first others body rest found restHypothesis =>
      obtain ⟨headPart, restPart⟩ := Chunk.sublist_of_ofRange found
      obtain ⟨ending, rfl, ends⟩ := Chunk.eq_of_ofRange found
      have headFits : FitsBehind [] (first :: body) := by
        rw [← List.cons_append] at fits
        exact fits.of_append
      rw [outcome_readRange_of_assignment found]
      apply ((readAssignment_sparesClosing headFits).mono headPart.subset).bind
      intro statement read
      have restFits := fits_behind_assignment fits read ends
      exact ((restHypothesis restFits).mono restPart.subset).map _
  | block termination first others body rest found branchHypothesis
      restHypothesis =>
      have block_eq : Chunk.splitBlock others = (body, rest) :=
        Chunk.eq_of_ofRange found
      have whole_eq := Chunk.append_splitBlock others
      rw [block_eq] at whole_eq
      subst whole_eq
      rw [outcome_readRange_of_block found]
      exact blockOutcome_sparesClosing fits branchHypothesis restHypothesis

end Statement

end ConditionalAssignment
