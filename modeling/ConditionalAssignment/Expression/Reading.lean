import ConditionalAssignment.Cut
import ConditionalAssignment.Expression
import ConditionalAssignment.ParseError

/-!
# Reading expressions

Values and operators alternate, except that a group may also directly follow a
value.  A group reaches to the bracket that brings the nesting depth back to
where it was; all families count alike, and only then are the two brackets of
the group compared.
-/

namespace ConditionalAssignment

/-- The operand that a token stands for. -/
def Operand.ofToken? (token : Token) : Option Operand :=
  match token.kind with
  | .identifier => some (.identifier token.text)
  | .constant => some (.constant token.text)
  | _ => none

/-- Cut a list of tokens at the bracket that closes more than was opened, given
the number of brackets opened before the list. -/
def Cut.atClose? (depth : Nat) : List Token → Option (Cut Token)
  | [] => none
  | token :: rest =>
      match token.kind, depth with
      | .openBracket, _ => (atClose? (depth + 1) rest).map (cons token)
      | .closeBracket, 0 => some ⟨[], token, rest⟩
      | .closeBracket, outer + 1 => (atClose? outer rest).map (cons token)
      | _, _ => (atClose? depth rest).map (cons token)

/-- A cut at a closing bracket leaves the list whole. -/
theorem Cut.whole_of_atClose?
    {depth : Nat}
    {tokens : List Token}
    {cut : Cut Token}
    (found : Cut.atClose? depth tokens = some cut) :
    cut.whole = tokens := by
  induction tokens generalizing depth cut with
  | nil => simp [Cut.atClose?] at found
  | cons token rest inductionHypothesis =>
      have deeper
          {depth : Nat}
          (mapped :
            (Cut.atClose? depth rest).map (Cut.cons token) = some cut) :
          cut.whole = token :: rest := by
        obtain ⟨restCut, restFound, rfl⟩ := Option.map_eq_some_iff.mp mapped
        rw [Cut.whole_cons, inductionHypothesis restFound]
      unfold Cut.atClose? at found
      split at found
      · exact deeper found
      · cases found
        rfl
      · exact deeper found
      · exact deeper found

namespace Expression

/-- The character that must close a group, which an unknown opening bracket
does not have. -/
def closingOf (opening : Token) : Option Char :=
  (Bracket.ofSpelling? opening.text).map Bracket.closing

/-- Cut the tokens after an opening bracket at its closing partner. -/
def closeGroup
    (opening : Token)
    (rest : List Token) : Except ParseError (Cut Token) :=
  match Cut.atClose? 0 rest with
  | none => .error (.blame opening (.unclosedBracket opening.text))
  | some cut =>
      if cut.pivot.text.toList.head? = closingOf opening then
        .ok cut
      else
        .error
          (.blame cut.pivot (.mismatchedBracket opening.text cut.pivot.text))

/-- A closed group leaves the list of tokens whole. -/
theorem whole_of_closeGroup
    {opening : Token}
    {rest : List Token}
    {cut : Cut Token}
    (closed : closeGroup opening rest = .ok cut) :
    cut.whole = rest := by
  unfold closeGroup at closed
  split at closed
  · cases closed
  · rename_i found
    split at closed
    · cases closed
      exact Cut.whole_of_atClose? found
    · cases closed

/-- What may come next in an expression. -/
inductive Expectation where
  /-- An operand or a group. -/
  | value
  /-- An operator, a group or the end. -/
  | operator
deriving DecidableEq

/-- Read the rest of an expression.  The anchor is the place to blame if the
expression ends too early. -/
def readFrom
    (expectation : Expectation)
    (anchor : Position)
    (tokens : List Token) : Except ParseError Expression :=
  match tokens with
  | [] =>
      match expectation with
      | .value => .error ⟨.expectedOperand none, some anchor⟩
      | .operator => .ok []
  | token :: rest =>
      match token.kind, expectation with
      | .identifier, .value => do
          let terms ← readFrom .operator token.position rest
          return .operand (.identifier token.text) :: terms
      | .constant, .value => do
          let terms ← readFrom .operator token.position rest
          return .operand (.constant token.text) :: terms
      | .identifier, .operator | .constant, .operator =>
          .error (.blame token (.expectedOperator token.text))
      | .arithmetic, .operator => do
          let terms ← readFrom .value token.position rest
          match ArithmeticOperator.ofSymbol? token.text with
          | some operator => return .operator operator :: terms
          | none => return terms
      | .arithmetic, .value =>
          .error (.blame token (.expectedOperand (some token.text)))
      | .openBracket, _ =>
          match _ : closeGroup token rest with
          | .error error => .error error
          | .ok cut => do
              let inner ← readFrom .value token.position cut.before
              let terms ← readFrom .operator cut.pivot.position cut.after
              let bracket := (Bracket.ofSpelling? token.text).getD .round
              return .group bracket inner :: terms
      | _, _ => .error (.blame token (.unexpectedToken token.text))
termination_by tokens.length
decreasing_by
  all_goals simp only [List.length_cons]
  all_goals try omega
  all_goals
    rename_i closed
    have whole := whole_of_closeGroup closed
    have := cut.length_before_lt
    have := cut.length_after_lt
    rw [whole] at *
    omega

/-- Read an expression from all of the tokens.  The anchor is the place to
blame if there are none. -/
def ofTokens
    (anchor : Position)
    (tokens : List Token) : Except ParseError Expression :=
  readFrom .value anchor tokens

end Expression

end ConditionalAssignment
