import ConditionalAssignment.Source

/-!
# Reading by index

Readers of tokens cut lists, and a cut has no bounds to get wrong.  Here the same
readers are written down to the indices: they search for an index, take what
stands at it or between two of them, and count brackets up and down.  Every step
that could go wrong is checked.  An index has to be in range, a counter must not
fall below zero, and a loop or a reader that starts over must do so on fewer
tokens.  A check that fails is a fault, which is not the same as an error: an
error is about the tokens, a fault would be about the reader.
-/

namespace ConditionalAssignment

/-- A way in which a reader itself could go wrong. -/
inductive IndexFault where
  /-- An index or a bound is out of range. -/
  | outOfRange
  /-- A counter falls below zero. -/
  | underflow
  /-- A reader starts over on as many tokens as before. -/
  | noProgress
deriving DecidableEq

/-- What a reader that checks its indices gives. -/
inductive Indexed (α : Type) where
  /-- The tokens can be read. -/
  | value (value : α)
  /-- The tokens cannot be read. -/
  | error (error : ParseError)
  /-- The reader went wrong. -/
  | fault (fault : IndexFault)

namespace Indexed

variable {α β : Type}

/-- An outcome without faults. -/
def ofExcept : Except ParseError α → Indexed α
  | .ok found => .value found
  | .error failure => .error failure

/-- Go on with a value, if there is one. -/
def andThen : Indexed α → (α → Indexed β) → Indexed β
  | .value found, next => next found
  | .error failure, _ => .error failure
  | .fault cause, _ => .fault cause

instance : Monad Indexed where
  pure := value
  bind := andThen

@[simp] theorem pure_eq (found : α) : (pure found : Indexed α) = .value found :=
  rfl

@[simp] theorem value_bind (found : α) (next : α → Indexed β) :
    (value found >>= next) = next found :=
  rfl

@[simp] theorem ofExcept_ok (found : α) : ofExcept (.ok found) = .value found :=
  rfl

@[simp] theorem ofExcept_error (failure : ParseError) :
    (ofExcept (.error failure) : Indexed α) = .error failure :=
  rfl

/-- Steps without faults make a computation without faults. -/
theorem ofExcept_bind
    (outcome : Except ParseError α)
    (next : α → Except ParseError β) :
    ofExcept (outcome >>= next) =
      ofExcept outcome >>= fun found => ofExcept (next found) := by
  cases outcome <;> rfl

theorem ofExcept_map (outcome : Except ParseError α) (change : α → β) :
    ofExcept (outcome.map change) =
      ofExcept outcome >>= fun found => .value (change found) := by
  cases outcome <;> rfl

/-- A fault is no outcome of reading. -/
theorem ofExcept_ne_fault
    (outcome : Except ParseError α)
    (cause : IndexFault) :
    ofExcept outcome ≠ .fault cause := by
  cases outcome with
  | ok found => simp
  | error failure => simp

theorem bind_assoc
    {γ : Type}
    (outcome : Indexed α)
    (next : α → Indexed β)
    (last : β → Indexed γ) :
    ((outcome >>= next) >>= last) =
      outcome >>= fun found => next found >>= last := by
  cases outcome <;> rfl

/-! ## Indices and counters -/

/-- The element at an index. -/
def item (list : List α) (index : Nat) : Indexed α :=
  match list[index]? with
  | some element => .value element
  | none => .fault .outOfRange

/-- The elements from an index on and before another. -/
def slice (list : List α) (start stop : Nat) : Indexed (List α) :=
  if start ≤ stop ∧ stop ≤ list.length then
    .value ((list.take stop).drop start)
  else
    .fault .outOfRange

/-- A counter lowered by one. -/
def lower : Nat → Indexed Nat
  | 0 => .fault .underflow
  | less + 1 => .value less

/-- The index of the last element that satisfies a test. -/
def lastIndex? (test : α → Bool) : List α → Option Nat
  | [] => none
  | element :: rest =>
      match lastIndex? test rest with
      | some index => some (index + 1)
      | none => if test element then some 0 else none

/-! ## Expressions -/

/-- Look through tokens, the first of which has a given index, for the bracket
that closes a group. -/
def closeFrom
    (opening : Token)
    (depth index : Nat) : List Token → Indexed Nat
  | [] => .error (.blame opening (.unclosedBracket opening.text))
  | token :: rest =>
      match token.kind with
      | .openBracket => closeFrom opening (depth + 1) (index + 1) rest
      | .closeBracket => do
          let depth ← lower depth
          if depth = 0 then
            if token.text.toList.head? = Expression.closingOf opening then
              return index
            else
              .error
                (.blame token (.mismatchedBracket opening.text token.text))
          else
            closeFrom opening depth (index + 1) rest
      | _ => closeFrom opening depth (index + 1) rest

/-- The index of the bracket that closes the group opened at an index. -/
def matchingClose (tokens : List Token) (index : Nat) : Indexed Nat := do
  let opening ← item tokens index
  closeFrom opening 0 index (tokens.drop index)

/-- The place of the last token, or the anchor if there is none. -/
def lastPlace (anchor : Position) (tokens : List Token) : Position :=
  (tokens.getLast?.map Token.position).getD anchor

/-- Read the rest of an expression from an index on. -/
def expressionFrom
    (anchor : Position)
    (tokens : List Token)
    (expectation : Expression.Expectation)
    (index : Nat) : Indexed Expression :=
  if _ : index < tokens.length then do
    let token ← item tokens index
    match token.kind, expectation with
    | .identifier, .value => do
        let terms ← expressionFrom anchor tokens .operator (index + 1)
        return .operand (.identifier token.text) :: terms
    | .constant, .value => do
        let terms ← expressionFrom anchor tokens .operator (index + 1)
        return .operand (.constant token.text) :: terms
    | .identifier, .operator | .constant, .operator =>
        .error (.blame token (.expectedOperator token.text))
    | .arithmetic, .operator => do
        let terms ← expressionFrom anchor tokens .value (index + 1)
        match ArithmeticOperator.ofSymbol? token.text with
        | some operator => return .operator operator :: terms
        | none => return terms
    | .arithmetic, .value =>
        .error (.blame token (.expectedOperand (some token.text)))
    | .openBracket, _ => do
        let close ← matchingClose tokens index
        let part ← slice tokens (index + 1) close
        if _ : part.length < tokens.length then do
          let inner ← expressionFrom token.position part .value 0
          if _ : index < close + 1 then do
            let terms ← expressionFrom anchor tokens .operator (close + 1)
            let bracket := (Bracket.ofSpelling? token.text).getD .round
            return .group bracket inner :: terms
          else
            .fault .noProgress
        else
          .fault .noProgress
    | _, _ => .error (.blame token (.unexpectedToken token.text))
  else
    match expectation with
    | .value => .error ⟨.expectedOperand none, some (lastPlace anchor tokens)⟩
    | .operator => return []
termination_by (tokens.length, tokens.length - index)

/-! ## Statements -/

/-- Read an assignment. -/
def assignment (head : List Token) : Indexed Statement := do
  let target ← item head 0
  if head.length < 3 then
    .error (.blame target .incompleteStatement)
  else do
    let sign ← item head 1
    if sign.kind ≠ .assignment then
      .error (.blame sign (.expectedAssignment sign.text))
    else if target.kind ≠ .identifier then
      .error (.blame target (.expectedIdentifier target.text))
    else do
      let body ← slice head 2 head.length
      let value ← expressionFrom sign.position body .value 0
      return .assignment target.text value

/-- The tokens through the first delimiter from an index on, or all of them. -/
def blockFrom (tokens : List Token) (start : Nat) : Indexed (List Token) := do
  let behind ← slice tokens start tokens.length
  match behind.findIdx? Token.isDelimiter with
  | some index => slice tokens 0 (start + index + 1)
  | none => return tokens

/-- The block of the conditional at the start of a range. -/
def block (tokens : List Token) : Indexed (List Token) :=
  match lastIndex? (Token.isKeyword · .elseWord) tokens with
  | some index => blockFrom tokens (index + 1)
  | none => blockFrom tokens 0

/-- A reader of ranges. -/
abbrev RangeReader :=
  Termination → List Token → Indexed (List Statement)

/-- Read the branch of a clause. -/
def branch
    (read : RangeReader)
    (termination : Termination)
    (clause : Clause) : Indexed (List Statement) := do
  ofExcept clause.check
  read termination clause.body

/-- Read the branches of a block behind the words at given indices. -/
def branches
    (read : RangeReader)
    (termination : Termination)
    (block : List Token)
    (condition : Comparison)
    (thenIndex : Nat)
    (elseIndex : Option Nat) : Indexed Statement := do
  let thenToken ← item block thenIndex
  match elseIndex with
  | some elseIndex => do
      let elseToken ← item block elseIndex
      let thenBody ← slice block (thenIndex + 1) elseIndex
      let thenBranch ←
        branch read .implied ⟨.thenWord, thenToken.position, thenBody⟩
      let elseBody ← slice block (elseIndex + 1) block.length
      let elseBranch ←
        branch read termination ⟨.elseWord, elseToken.position, elseBody⟩
      return .conditional condition thenBranch (some elseBranch)
  | none => do
      let thenBody ← slice block (thenIndex + 1) block.length
      let thenBranch ←
        branch read termination ⟨.thenWord, thenToken.position, thenBody⟩
      return .conditional condition thenBranch none

/-- Read the conditional that a block holds. -/
def conditional
    (read : RangeReader)
    (termination : Termination)
    (block : List Token) : Indexed Statement := do
  let first ← item block 0
  if first.isKeyword .ifWord then
    match block.findIdx? (Token.isKeyword · .thenWord) with
    | none => .error (.blame first .missingThen)
    | some thenIndex =>
        let elseIndex := lastIndex? (Token.isKeyword · .elseWord) block
        match elseIndex.filter (· < thenIndex) with
        | some index => do
            let misplaced ← item block index
            .error (.blame misplaced .misplacedElse)
        | none => do
            let tokens ← slice block 1 thenIndex
            let condition ← ofExcept (Comparison.ofTokens first tokens)
            branches read termination block condition thenIndex elseIndex
  else
    .error (.blame first (.expectedKeyword .ifWord first.text))

/-- Where the first statement of a range ends at the latest, if it does. -/
def headEnd? (termination : Termination) (tokens : List Token) : Option Nat :=
  match tokens.findIdx? Token.isDelimiter, termination with
  | some index, _ => some index
  | none, .implied => some tokens.length
  | none, .required => none

/-- Read the first statement of a range and go on with a reader for the rest of
it, which also reads branches. -/
def rangeStep
    (read : RangeReader)
    (termination : Termination)
    (tokens : List Token) : Indexed (List Statement) :=
  match tokens.head? with
  | none => return []
  | some first =>
      match headEnd? termination tokens with
      | none => .error (.blame first .unterminatedStatement)
      | some stop => do
          let head ← slice tokens 0 stop
          if head.isEmpty then
            .error (.blame first .emptyStatement)
          else if head.any Token.isReserved then do
            let block ← block tokens
            let statement ← conditional read termination block
            let rest ← slice tokens block.length tokens.length
            let statements ← read termination rest
            return statement :: statements
          else do
            let statement ← assignment head
            let rest ←
              slice tokens (min (stop + 1) tokens.length) tokens.length
            let statements ← read termination rest
            return statement :: statements

/-- Read all statements of a range.  What is read after the first statement, or
as a branch of it, has to be shorter than the range. -/
def range
    (termination : Termination)
    (tokens : List Token) : Indexed (List Statement) :=
  rangeStep
    (fun mode part =>
      if _ : part.length < tokens.length then
        range mode part
      else
        .fault .noProgress)
    termination tokens
termination_by tokens.length

end Indexed

/-- Read a program from tokens by index. -/
def Program.readIndexed (tokens : List Token) : Indexed Program := do
  let statements ← Indexed.range .required tokens
  return ⟨statements⟩

end ConditionalAssignment
