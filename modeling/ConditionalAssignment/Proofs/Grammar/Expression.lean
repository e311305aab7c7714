import ConditionalAssignment.Expression.Reading
import ConditionalAssignment.Proofs.Outcome
import ConditionalAssignment.Proofs.Word

/-!
# The grammar of expressions

The words of an expression are described by an inductive relation that never
looks ahead: a group is an opening bracket, the words of its inner expression
and a closing bracket.  The reader instead looks for the closing bracket first,
by counting, and reads the words in between afterwards.  The two agree because
words that read as an expression open and close brackets equally often.

The relation covers all words, also those whose text is no spelling of their
kind: an unknown operator adds no term, and a closing bracket must start with
the character that closes the opening one, if that is known.
-/

namespace ConditionalAssignment

namespace Expression

/-- The words read as the rest of an expression. -/
inductive Reads : Expectation → List Word → Expression → Prop
  | finish : Reads .operator [] []
  | operand {operand : Operand} {rest : List Word} {terms : Expression} :
      Reads .operator rest terms →
        Reads .value (operand.word :: rest) (.operand operand :: terms)
  | operator
      {text : String}
      {operator : ArithmeticOperator}
      {rest : List Word}
      {terms : Expression} :
      ArithmeticOperator.ofSymbol? text = some operator →
        Reads .value rest terms →
          Reads .operator (⟨.arithmetic, text⟩ :: rest)
            (.operator operator :: terms)
  | unknownOperator
      {text : String}
      {rest : List Word}
      {terms : Expression} :
      ArithmeticOperator.ofSymbol? text = none →
        Reads .value rest terms →
          Reads .operator (⟨.arithmetic, text⟩ :: rest) terms
  | group
      {expectation : Expectation}
      {opening closing : String}
      {inner rest : List Word}
      {innerTerms terms : Expression} :
      closing.toList.head? =
          (Bracket.ofSpelling? opening).map Bracket.closing →
        Reads .value inner innerTerms → Reads .operator rest terms →
          Reads expectation
            (⟨.openBracket, opening⟩ ::
              (inner ++ ⟨.closeBracket, closing⟩ :: rest))
            (.group ((Bracket.ofSpelling? opening).getD .round) innerTerms ::
              terms)

end Expression

/-! ## The reader, step by step -/

namespace Operand

theorem ofToken?_eq_some_iff
    {token : Token}
    {operand : Operand} :
    ofToken? token = some operand ↔ token.word = operand.word := by
  obtain ⟨kind, text, position⟩ := token
  cases operand <;> cases kind <;> simp [ofToken?, Token.word, word]

theorem kind_ne_of_word_eq
    {token : Token}
    {operand : Operand}
    (word_eq : token.word = operand.word) :
    token.kind ≠ .openBracket ∧ token.kind ≠ .closeBracket := by
  have kind_eq : token.kind = operand.word.kind := congrArg Word.kind word_eq
  rw [kind_eq]
  cases operand <;> simp [word]

end Operand

namespace Expression

theorem readFrom_operand
    {token : Token}
    {operand : Operand}
    (word_eq : token.word = operand.word)
    (anchor : Position)
    (rest : List Token) :
    readFrom .value anchor (token :: rest) =
      (readFrom .operator token.position rest).map (.operand operand :: ·) := by
  have isOperand := Operand.ofToken?_eq_some_iff.mpr word_eq
  unfold Operand.ofToken? at isOperand
  rw [readFrom.eq_def]
  split at isOperand
  · rename_i kind_eq
    cases isOperand
    simp only [kind_eq]
    rfl
  · rename_i kind_eq
    cases isOperand
    simp only [kind_eq]
    rfl
  · cases isOperand

theorem readFrom_arithmetic
    {token : Token}
    (isArithmetic : token.kind = .arithmetic)
    (anchor : Position)
    (rest : List Token) :
    readFrom .operator anchor (token :: rest) =
      (readFrom .value token.position rest).map fun terms =>
        match ArithmeticOperator.ofSymbol? token.text with
        | some operator => .operator operator :: terms
        | none => terms := by
  rw [readFrom.eq_def]
  simp only [isArithmetic]
  cases ArithmeticOperator.ofSymbol? token.text <;> rfl

theorem readFrom_openBracket
    {token : Token}
    (isOpening : token.kind = .openBracket)
    (expectation : Expectation)
    (anchor : Position)
    (rest : List Token) :
    readFrom expectation anchor (token :: rest) = (do
      let cut ← closeGroup token rest
      let inner ← readFrom .value token.position cut.before
      let terms ← readFrom .operator cut.pivot.position cut.after
      return .group ((Bracket.ofSpelling? token.text).getD .round) inner
        :: terms) := by
  rw [readFrom.eq_def]
  simp only [isOpening]
  split
  · rename_i failed
    rw [failed]
    rfl
  · rename_i closed
    rw [closed]
    rfl

/-- What is wrong with a token that neither is expected nor opens a group. -/
def misplacedFault? (expectation : Expectation) (token : Token) :
    Option ParseFault :=
  match token.kind, expectation with
  | .identifier, .value | .constant, .value => none
  | .identifier, .operator | .constant, .operator =>
      some (.expectedOperator token.text)
  | .arithmetic, .operator => none
  | .arithmetic, .value => some (.expectedOperand (some token.text))
  | .openBracket, _ => none
  | _, _ => some (.unexpectedToken token.text)

section

variable {expectation : Expectation} {token : Token} {fault : ParseFault}

theorem eq_of_misplacedFault?
    (misplaced : misplacedFault? expectation token = some fault) :
    fault = .expectedOperator token.text ∨
      fault = .expectedOperand (some token.text) ∨
        fault = .unexpectedToken token.text := by
  unfold misplacedFault? at misplaced
  split at misplaced <;> simp_all

theorem readFrom_misplaced
    (misplaced : misplacedFault? expectation token = some fault)
    (anchor : Position)
    (rest : List Token) :
    readFrom expectation anchor (token :: rest) =
      .error (.blame token fault) := by
  unfold misplacedFault? at misplaced
  rw [readFrom.eq_def]
  split at misplaced <;> simp_all

end

/-- Prove a property of all expressions that are to be read from the first token:
it is expected, it opens a group or it is misplaced. -/
theorem readFrom_induction
    {motive : Expectation → Position → List Token → Prop}
    (finish : ∀ expectation anchor, motive expectation anchor [])
    (operand : ∀ anchor token rest (operand : Operand),
      token.word = operand.word →
        motive .operator token.position rest →
          motive .value anchor (token :: rest))
    (operator : ∀ anchor token rest,
      token.kind = .arithmetic →
        motive .value token.position rest →
          motive .operator anchor (token :: rest))
    (misplaced : ∀ expectation anchor token rest fault,
      misplacedFault? expectation token = some fault →
        motive expectation anchor (token :: rest))
    (unclosed : ∀ expectation anchor token rest error,
      token.kind = .openBracket →
        closeGroup token rest = .error error →
          motive expectation anchor (token :: rest))
    (group : ∀ expectation anchor token rest cut,
      token.kind = .openBracket →
        closeGroup token rest = .ok cut →
          motive .value token.position cut.before →
            motive .operator cut.pivot.position cut.after →
              motive expectation anchor (token :: rest))
    (expectation : Expectation)
    (anchor : Position)
    (tokens : List Token) :
    motive expectation anchor tokens := by
  induction expectation, anchor, tokens using readFrom.induct with
  | case1 anchor => exact finish _ _
  | case2 anchor => exact finish _ _
  | case3 anchor token rest isIdentifier inductionHypothesis =>
      have word_eq : token.word = (Operand.identifier token.text).word := by
        simp [Token.word, Operand.word, isIdentifier]
      exact operand _ _ _ _ word_eq inductionHypothesis
  | case4 anchor token rest isConstant inductionHypothesis =>
      have word_eq : token.word = (Operand.constant token.text).word := by
        simp [Token.word, Operand.word, isConstant]
      exact operand _ _ _ _ word_eq inductionHypothesis
  | case5 anchor token rest isIdentifier =>
      exact misplaced _ _ _ _ (.expectedOperator token.text)
        (by simp [misplacedFault?, isIdentifier])
  | case6 anchor token rest isConstant =>
      exact misplaced _ _ _ _ (.expectedOperator token.text)
        (by simp [misplacedFault?, isConstant])
  | case7 anchor token rest isArithmetic inductionHypothesis =>
      exact operator _ _ _ isArithmetic inductionHypothesis
  | case8 anchor token rest isArithmetic =>
      exact misplaced _ _ _ _ (.expectedOperand (some token.text))
        (by simp [misplacedFault?, isArithmetic])
  | case9 expectation anchor token rest isOpening error failed =>
      exact unclosed _ _ _ _ _ isOpening failed
  | case10 expectation anchor token rest isOpening cut closed innerHypothesis
      restHypothesis =>
      exact group _ _ _ _ _ isOpening closed innerHypothesis restHypothesis
  | case11 expectation anchor token rest =>
      apply misplaced _ _ _ _ (.unexpectedToken token.text)
      unfold misplacedFault?
      split <;> simp_all

end Expression

/-! ## Counting brackets -/

namespace Cut

/-- The cut of a list that has more elements in front. -/
def prepend {α : Type} (front : List α) (cut : Cut α) : Cut α :=
  ⟨front ++ cut.before, cut.pivot, cut.after⟩

/-- A closing bracket that is found has the kind of a closing bracket. -/
theorem kind_pivot_of_atClose?
    {depth : Nat}
    {tokens : List Token}
    {cut : Cut Token}
    (found : atClose? depth tokens = some cut) :
    cut.pivot.kind = .closeBracket := by
  induction tokens generalizing depth cut with
  | nil => cases found
  | cons token rest inductionHypothesis =>
      have deeper
          {depth : Nat}
          (mapped : (atClose? depth rest).map (cons token) = some cut) :
          cut.pivot.kind = .closeBracket := by
        obtain ⟨restCut, restFound, rfl⟩ := Option.map_eq_some_iff.mp mapped
        have isClosing := inductionHypothesis restFound
        exact isClosing
      unfold atClose? at found
      split at found
      · exact deeper found
      · rename_i isClosing
        cases found
        exact isClosing
      · exact deeper found
      · exact deeper found

theorem atClose?_openBracket
    {token : Token}
    (isOpening : token.kind = .openBracket)
    (depth : Nat)
    (rest : List Token) :
    atClose? depth (token :: rest) =
      (atClose? (depth + 1) rest).map (cons token) := by
  rw [atClose?.eq_def]
  simp only [isOpening]

theorem atClose?_closeBracket_zero
    {token : Token}
    (isClosing : token.kind = .closeBracket)
    (rest : List Token) :
    atClose? 0 (token :: rest) = some ⟨[], token, rest⟩ := by
  rw [atClose?.eq_def]
  simp only [isClosing]

theorem atClose?_closeBracket_succ
    {token : Token}
    (isClosing : token.kind = .closeBracket)
    (depth : Nat)
    (rest : List Token) :
    atClose? (depth + 1) (token :: rest) =
      (atClose? depth rest).map (cons token) := by
  rw [atClose?.eq_def]
  simp only [isClosing]

theorem atClose?_of_ne
    {token : Token}
    (isNoOpening : token.kind ≠ .openBracket)
    (isNoClosing : token.kind ≠ .closeBracket)
    (depth : Nat)
    (rest : List Token) :
    atClose? depth (token :: rest) =
      (atClose? depth rest).map (cons token) := by
  rw [atClose?.eq_def]
  dsimp only
  split
  · rename_i isOpening
    exact absurd isOpening isNoOpening
  · rename_i isClosing
    exact absurd isClosing isNoClosing
  · rename_i isClosing
    exact absurd isClosing isNoClosing
  · rfl

/-- Words that read as an expression leave the nesting depth as it was. -/
theorem atClose?_append_of_reads
    {expectation : Expression.Expectation}
    {words : List Word}
    {terms : Expression}
    (reads : Expression.Reads expectation words terms)
    {tokens : List Token}
    (words_eq : tokens.map Token.word = words)
    (depth : Nat)
    (rest : List Token) :
    atClose? depth (tokens ++ rest) =
      (atClose? depth rest).map (prepend tokens) := by
  induction reads generalizing tokens depth rest with
  | finish =>
      rw [List.map_eq_nil_iff] at words_eq
      subst words_eq
      exact Option.map_id'.symm
  | operand _ inductionHypothesis =>
      obtain ⟨token, others, rfl, word_eq, others_eq⟩ :=
        List.map_eq_cons_iff.mp words_eq
      obtain ⟨isNoOpening, isNoClosing⟩ := Operand.kind_ne_of_word_eq word_eq
      rw [List.cons_append, atClose?_of_ne isNoOpening isNoClosing,
        inductionHypothesis others_eq, Option.map_map]
      rfl
  | operator _ _ inductionHypothesis
  | unknownOperator _ _ inductionHypothesis =>
      obtain ⟨token, others, rfl, word_eq, others_eq⟩ :=
        List.map_eq_cons_iff.mp words_eq
      have kind_eq : token.kind = .arithmetic := congrArg Word.kind word_eq
      rw [List.cons_append, atClose?_of_ne (by simp [kind_eq])
          (by simp [kind_eq]),
        inductionHypothesis others_eq, Option.map_map]
      rfl
  | group _ _ _ innerHypothesis restHypothesis =>
      obtain ⟨opening, others, rfl, opening_eq, others_eq⟩ :=
        List.map_eq_cons_iff.mp words_eq
      obtain ⟨inner, behind, rfl, inner_eq, behind_eq⟩ :=
        List.map_eq_append_iff.mp others_eq
      obtain ⟨closing, last, rfl, closing_eq, last_eq⟩ :=
        List.map_eq_cons_iff.mp behind_eq
      have isOpening : opening.kind = .openBracket :=
        congrArg Word.kind opening_eq
      have isClosing : closing.kind = .closeBracket :=
        congrArg Word.kind closing_eq
      rw [List.cons_append, List.append_assoc, List.cons_append,
        atClose?_openBracket isOpening, innerHypothesis inner_eq,
        atClose?_closeBracket_succ isClosing, restHypothesis last_eq]
      simp only [Option.map_map]
      congr 1
      funext cut
      simp [prepend, cons]

end Cut

namespace Expression

/-- A group is closed at the bracket behind words that read as an expression. -/
theorem closeGroup_of_reads
    {opening closing : Token}
    {inner rest : List Token}
    {innerTerms : Expression}
    (isClosing : closing.kind = .closeBracket)
    (reads : Reads .value (inner.map Token.word) innerTerms)
    (closes : closing.text.toList.head? = closingOf opening) :
    closeGroup opening (inner ++ closing :: rest) =
      .ok ⟨inner, closing, rest⟩ := by
  have found :
      Cut.atClose? 0 (inner ++ closing :: rest) =
        some ⟨inner, closing, rest⟩ := by
    rw [Cut.atClose?_append_of_reads reads rfl,
      Cut.atClose?_closeBracket_zero isClosing]
    simp [Cut.prepend]
  unfold closeGroup
  rw [found]
  simp only [closes, if_true]

/-- What closes a group is a closing bracket of the family that was opened. -/
theorem eq_of_closeGroup
    {opening : Token}
    {rest : List Token}
    {cut : Cut Token}
    (closed : closeGroup opening rest = .ok cut) :
    cut.whole = rest ∧ cut.pivot.kind = .closeBracket ∧
      cut.pivot.text.toList.head? = closingOf opening := by
  have whole := whole_of_closeGroup closed
  unfold closeGroup at closed
  split at closed
  · cases closed
  · rename_i found
    split at closed
    · rename_i closes
      cases closed
      exact ⟨whole, Cut.kind_pivot_of_atClose? found, closes⟩
    · cases closed

/-! ## The reader and the grammar agree -/

theorem reads_of_readFrom
    {expectation : Expectation}
    {anchor : Position}
    {tokens : List Token}
    {terms : Expression}
    (read : readFrom expectation anchor tokens = .ok terms) :
    Reads expectation (tokens.map Token.word) terms := by
  induction expectation, anchor, tokens using readFrom_induction
    generalizing terms with
  | finish expectation anchor =>
      rw [readFrom.eq_def] at read
      cases expectation with
      | value => cases read
      | operator =>
          cases read
          exact .finish
  | operand anchor token rest operand word_eq inductionHypothesis =>
      rw [readFrom_operand word_eq] at read
      obtain ⟨others, restRead, rfl⟩ := map_eq_ok_iff.mp read
      rw [List.map_cons, word_eq]
      exact .operand (inductionHypothesis restRead)
  | operator anchor token rest isArithmetic inductionHypothesis =>
      rw [readFrom_arithmetic isArithmetic] at read
      obtain ⟨others, restRead, terms_eq⟩ := map_eq_ok_iff.mp read
      have word_eq : token.word = ⟨.arithmetic, token.text⟩ := by
        simp [Token.word, isArithmetic]
      rw [List.map_cons, word_eq]
      split at terms_eq
      · rename_i operator found
        subst terms_eq
        exact .operator found (inductionHypothesis restRead)
      · rename_i unknown
        subst terms_eq
        exact .unknownOperator unknown (inductionHypothesis restRead)
  | misplaced expectation anchor token rest fault misplaced =>
      rw [readFrom_misplaced misplaced] at read
      cases read
  | unclosed expectation anchor token rest error isOpening failed =>
      rw [readFrom_openBracket isOpening, failed] at read
      cases read
  | group expectation anchor token rest cut isOpening closed innerHypothesis
      restHypothesis =>
      rw [readFrom_openBracket isOpening, closed] at read
      obtain ⟨_, cut_eq, read⟩ := bind_eq_ok_iff.mp read
      cases cut_eq
      obtain ⟨inner, innerRead, read⟩ := bind_eq_ok_iff.mp read
      obtain ⟨others, restRead, terms_eq⟩ := bind_eq_ok_iff.mp read
      cases terms_eq
      obtain ⟨whole, isClosing, closes⟩ := eq_of_closeGroup closed
      have opening_eq : token.word = ⟨.openBracket, token.text⟩ := by
        simp [Token.word, isOpening]
      have closing_eq :
          cut.pivot.word = ⟨.closeBracket, cut.pivot.text⟩ := by
        simp [Token.word, isClosing]
      rw [← whole, Cut.whole, List.map_cons, List.map_append, List.map_cons,
        opening_eq, closing_eq]
      exact .group closes (innerHypothesis innerRead) (restHypothesis restRead)

theorem readFrom_of_reads
    {expectation : Expectation}
    {words : List Word}
    {terms : Expression}
    (reads : Reads expectation words terms)
    {tokens : List Token}
    (words_eq : tokens.map Token.word = words)
    (anchor : Position) :
    readFrom expectation anchor tokens = .ok terms := by
  induction reads generalizing tokens anchor with
  | finish =>
      rw [List.map_eq_nil_iff] at words_eq
      subst words_eq
      rw [readFrom.eq_def]
  | operand _ inductionHypothesis =>
      obtain ⟨token, others, rfl, word_eq, others_eq⟩ :=
        List.map_eq_cons_iff.mp words_eq
      rw [readFrom_operand word_eq, inductionHypothesis others_eq]
      rfl
  | operator found _ inductionHypothesis =>
      obtain ⟨token, others, rfl, word_eq, others_eq⟩ :=
        List.map_eq_cons_iff.mp words_eq
      have kind_eq : token.kind = .arithmetic := congrArg Word.kind word_eq
      have text_eq := congrArg Word.text word_eq
      rw [Token.text_word] at text_eq
      rw [readFrom_arithmetic kind_eq, inductionHypothesis others_eq, text_eq]
      simp only [found]
      rfl
  | unknownOperator unknown _ inductionHypothesis =>
      obtain ⟨token, others, rfl, word_eq, others_eq⟩ :=
        List.map_eq_cons_iff.mp words_eq
      have kind_eq : token.kind = .arithmetic := congrArg Word.kind word_eq
      have text_eq := congrArg Word.text word_eq
      rw [Token.text_word] at text_eq
      rw [readFrom_arithmetic kind_eq, inductionHypothesis others_eq, text_eq]
      simp only [unknown]
      rfl
  | group closes innerReads _ innerHypothesis restHypothesis =>
      obtain ⟨opening, others, rfl, opening_eq, others_eq⟩ :=
        List.map_eq_cons_iff.mp words_eq
      obtain ⟨inner, behind, rfl, inner_eq, behind_eq⟩ :=
        List.map_eq_append_iff.mp others_eq
      obtain ⟨closing, last, rfl, closing_eq, last_eq⟩ :=
        List.map_eq_cons_iff.mp behind_eq
      have isOpening : opening.kind = .openBracket :=
        congrArg Word.kind opening_eq
      have isClosing : closing.kind = .closeBracket :=
        congrArg Word.kind closing_eq
      have opening_text := congrArg Word.text opening_eq
      have closing_text := congrArg Word.text closing_eq
      simp only [Token.text_word] at opening_text closing_text
      rw [← opening_text, ← closing_text] at closes
      rw [← inner_eq] at innerReads
      rw [readFrom_openBracket isOpening,
        closeGroup_of_reads isClosing innerReads closes, opening_text]
      refine bind_eq_ok_iff.mpr ⟨_, rfl, ?_⟩
      refine bind_eq_ok_iff.mpr ⟨_, innerHypothesis inner_eq _, ?_⟩
      exact bind_eq_ok_iff.mpr ⟨_, restHypothesis last_eq _, rfl⟩

/-- The expressions that are read are those of the grammar. -/
theorem ofTokens_eq_ok_iff
    {anchor : Position}
    {tokens : List Token}
    {terms : Expression} :
    ofTokens anchor tokens = .ok terms ↔
      Reads .value (tokens.map Token.word) terms := by
  constructor
  · exact reads_of_readFrom
  · intro reads
    exact readFrom_of_reads reads rfl anchor

end Expression

end ConditionalAssignment
