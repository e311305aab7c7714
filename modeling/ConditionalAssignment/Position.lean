/-!
# Positions in a text

A position names a place in a text in the two ways a reader may want it: as a
byte offset, and as a line and a column.  It moves over the text one character
at a time, so the position after a stretch of text is a fold over that stretch.
-/

namespace ConditionalAssignment

/-- A place in a text. -/
structure Position where
  /-- The number of UTF-8 bytes before the place. -/
  offset : Nat
  /-- The line, counted from one. -/
  line : Nat
  /-- The column, counted in characters from one. -/
  column : Nat
deriving DecidableEq

namespace Position

/-- The start of a text. -/
def origin : Position :=
  ⟨0, 1, 1⟩

/-- Move over one character.  Only a line feed starts a new line. -/
def advance (position : Position) (character : Char) : Position :=
  if character = '\n' then
    ⟨position.offset + character.utf8Size, position.line + 1, 1⟩
  else
    ⟨position.offset + character.utf8Size, position.line,
      position.column + 1⟩

/-- The position after a stretch of text. -/
def after (position : Position) (text : List Char) : Position :=
  text.foldl advance position

@[simp] theorem after_nil (position : Position) :
    position.after [] = position :=
  rfl

@[simp] theorem after_cons
    (position : Position)
    (character : Char)
    (text : List Char) :
    position.after (character :: text) =
      (position.advance character).after text :=
  rfl

/-- Moving over two stretches in turn is moving over their concatenation. -/
@[simp] theorem after_append
    (position : Position)
    (first second : List Char) :
    position.after (first ++ second) = (position.after first).after second :=
  List.foldl_append

/-- Every character moves the offset by its size in UTF-8. -/
@[simp] theorem offset_advance
    (position : Position)
    (character : Char) :
    (position.advance character).offset =
      position.offset + character.utf8Size := by
  unfold advance
  split <;> rfl

/-- A stretch of text moves the offset by its size in UTF-8. -/
theorem offset_after (position : Position) (text : List Char) :
    (position.after text).offset =
      position.offset + (String.ofList text).utf8ByteSize := by
  induction text generalizing position with
  | nil => rw [after_nil, String.ofList_nil, String.utf8ByteSize_empty,
      Nat.add_zero]
  | cons character rest inductionHypothesis =>
      rw [after_cons, inductionHypothesis, offset_advance, String.ofList_cons,
        String.utf8ByteSize_append, String.utf8ByteSize_singleton,
        Nat.add_assoc]

/-- The text of a position in a message. -/
def describe (position : Position) : String :=
  s!"line {position.line}, column {position.column} (offset {position.offset})"

end Position

end ConditionalAssignment
