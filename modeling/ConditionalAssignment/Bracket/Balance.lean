import ConditionalAssignment.Bracket
import ConditionalAssignment.Position

/-!
# Balance of brackets

The check reads a text character by character and keeps the brackets still
open, innermost first.  It looks at nothing but brackets, so it can run before
the text is known to be made of tokens.  A failed check blames one bracket: the
closing one that fits nothing, or the oldest one that is never closed.
-/

namespace ConditionalAssignment

/-- A way in which brackets fail to balance. -/
inductive BracketFault where
  /-- A closing bracket stands where none is open. -/
  | unexpectedClose (close : Char)
  /-- A closing bracket meets an opening bracket of another family. -/
  | mismatched (opening close : Char)
  /-- An opening bracket is never closed. -/
  | unclosed (opening : Char)
deriving DecidableEq

/-- A bracket fault and the place of the bracket to blame. -/
structure BracketError where
  /-- What is wrong. -/
  fault : BracketFault
  /-- The place of the blamed bracket. -/
  position : Position
deriving DecidableEq

/-- The text of a bracket fault. -/
def BracketFault.message : BracketFault → String
  | unexpectedClose close =>
      s!"unbalanced brackets: '{close}' closes nothing"
  | mismatched opening close =>
      s!"unbalanced brackets: '{close}' cannot close '{opening}'"
  | unclosed opening =>
      s!"unbalanced brackets: '{opening}' is never closed"

/-- The text of a bracket error. -/
def BracketError.message (error : BracketError) : String :=
  s!"{error.fault.message} at {error.position.describe}"

/-- An opening bracket that still waits for its partner. -/
structure OpenBracket where
  /-- The family of the bracket. -/
  bracket : Bracket
  /-- The place of the bracket. -/
  position : Position
deriving DecidableEq

namespace Balance

/-- Check the rest of a text, given the brackets open before it. -/
def checkFrom
    (opened : List OpenBracket)
    (position : Position) :
    List Char → Except BracketError Unit
  | [] =>
      match opened.getLast? with
      | none => .ok ()
      | some oldest =>
          .error ⟨.unclosed oldest.bracket.opening, oldest.position⟩
  | character :: rest =>
      match Bracket.ofOpening? character with
      | some bracket =>
          checkFrom (⟨bracket, position⟩ :: opened)
            (position.advance character) rest
      | none =>
          match Bracket.ofClosing? character, opened with
          | none, _ => checkFrom opened (position.advance character) rest
          | some _, [] => .error ⟨.unexpectedClose character, position⟩
          | some bracket, innermost :: outer =>
              if innermost.bracket = bracket then
                checkFrom outer (position.advance character) rest
              else
                .error
                  ⟨.mismatched innermost.bracket.opening character, position⟩

/-- Check that the brackets of a text are balanced. -/
def check (source : String) : Except BracketError Unit :=
  checkFrom [] Position.origin source.toList

end Balance

end ConditionalAssignment
