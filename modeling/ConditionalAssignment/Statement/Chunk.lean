import ConditionalAssignment.Cut
import ConditionalAssignment.ParseError

/-!
# Chunks of a range of tokens

A range of tokens is read statement by statement.  A chunk is what the first
statement takes, found by looking at the kinds of tokens alone.  An assignment
takes the tokens up to the first delimiter.  If a reserved word stands among
those, the statement is a conditional, and it reaches through the first
delimiter after the last `else` of the whole range.
-/

namespace ConditionalAssignment

/-- Whether the end of a range may stand for the delimiter of its last
statement. -/
inductive Termination where
  /-- Every statement needs a delimiter of its own. -/
  | required
  /-- The end of the range also ends a statement. -/
  | implied
deriving DecidableEq

/-- The tokens of the first statement of a range and the range after it.  The
first token itself is not repeated. -/
structure Chunk where
  /-- A reserved word stands before the first delimiter. -/
  isConditional : Bool
  /-- The tokens of the statement after its first token. -/
  body : List Token
  /-- The tokens after the statement and its delimiter. -/
  rest : List Token

namespace Chunk

/-- Split tokens behind the first delimiter, or at their end. -/
def splitBehindDelimiter (tokens : List Token) : List Token × List Token :=
  match Cut.atFirst? Token.isDelimiter tokens with
  | some cut => (cut.before ++ [cut.pivot], cut.after)
  | none => (tokens, [])

/-- Split tokens behind the first delimiter that follows the last `else`. -/
def splitBlock (tokens : List Token) : List Token × List Token :=
  match Cut.atLast? (Token.isKeyword · .elseWord) tokens with
  | some cut =>
      let (ending, rest) := splitBehindDelimiter cut.after
      (cut.before ++ cut.pivot :: ending, rest)
  | none => splitBehindDelimiter tokens

/-- The chunk of the first statement, given the tokens before and after the
delimiter that ends an assignment here. -/
def ofHead
    (first : Token)
    (others head rest : List Token) : Chunk :=
  if (first :: head).any Token.isReserved then
    let (body, rest) := splitBlock others
    ⟨true, body, rest⟩
  else
    ⟨false, head, rest⟩

/-- The chunk of the first statement of a range, which starts with a given
token. -/
def ofRange
    (termination : Termination)
    (first : Token)
    (others : List Token) : Except ParseError Chunk :=
  if first.isDelimiter then
    .error (.blame first .emptyStatement)
  else
    match Cut.atFirst? Token.isDelimiter others with
    | some cut => .ok (ofHead first others cut.before cut.after)
    | none =>
        match termination with
        | .implied => .ok (ofHead first others others [])
        | .required => .error (.blame first .unterminatedStatement)

/-- Splitting behind a delimiter loses nothing. -/
theorem append_splitBehindDelimiter (tokens : List Token) :
    (splitBehindDelimiter tokens).1 ++ (splitBehindDelimiter tokens).2 =
      tokens := by
  unfold splitBehindDelimiter
  split
  · rename_i cut found
    have ⟨whole, _⟩ := Cut.atFirst?_eq_some_iff.mp found
    simp [whole, Cut.whole]
  · simp

/-- Splitting off a block loses nothing. -/
theorem append_splitBlock (tokens : List Token) :
    (splitBlock tokens).1 ++ (splitBlock tokens).2 = tokens := by
  unfold splitBlock
  split
  · rename_i cut found
    have ⟨whole, _⟩ := Cut.atLast?_eq_some_iff.mp found
    simp [whole, Cut.whole, append_splitBehindDelimiter]
  · exact append_splitBehindDelimiter tokens

/-- A chunk and the range after it fit into the range. -/
theorem length_ofRange_le
    {termination : Termination}
    {first : Token}
    {others : List Token}
    {chunk : Chunk}
    (found : ofRange termination first others = .ok chunk) :
    chunk.body.length + chunk.rest.length ≤ others.length := by
  have ofHead_le
      (head rest : List Token)
      (fits : head.length + rest.length ≤ others.length) :
      (ofHead first others head rest).body.length +
        (ofHead first others head rest).rest.length ≤ others.length := by
    unfold ofHead
    split
    · have whole := congrArg List.length (append_splitBlock others)
      simp only [List.length_append] at whole
      exact Nat.le_of_eq whole
    · exact fits
  unfold ofRange at found
  split at found
  · cases found
  · split at found
    · rename_i cut cutFound
      cases found
      have ⟨whole, _⟩ := Cut.atFirst?_eq_some_iff.mp cutFound
      apply ofHead_le
      simp only [whole, Cut.whole, List.length_append, List.length_cons]
      omega
    · split at found
      · cases found
        exact ofHead_le _ _ (Nat.le_refl _)
      · cases found

/-- The body of a chunk is shorter than the range. -/
theorem length_body_lt
    {termination : Termination}
    {first : Token}
    {others : List Token}
    {chunk : Chunk}
    (found : ofRange termination first others = .ok chunk) :
    chunk.body.length < (first :: others).length := by
  have fits := length_ofRange_le found
  simp only [List.length_cons]
  omega

/-- The range after a chunk is shorter than the range. -/
theorem length_rest_lt
    {termination : Termination}
    {first : Token}
    {others : List Token}
    {chunk : Chunk}
    (found : ofRange termination first others = .ok chunk) :
    chunk.rest.length < (first :: others).length := by
  have fits := length_ofRange_le found
  simp only [List.length_cons]
  omega

end Chunk

end ConditionalAssignment
