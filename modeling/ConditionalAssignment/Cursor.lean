import ConditionalAssignment.Lexeme

/-!
# Cursors

A cursor is a place in a text together with the text after it.  Its one step
skips blanks and takes one lexeme.  The step never fails: a stretch that makes
no token is handed out as an error in its turn, and reading goes on behind it.
-/

namespace ConditionalAssignment

/-- A lexical fault and the place where it starts. -/
structure LexError where
  /-- What is wrong. -/
  fault : LexFault
  /-- The place of the first character at fault. -/
  position : Position
deriving DecidableEq

namespace LexError

/-- The text of a lexical error. -/
def message (error : LexError) : String :=
  s!"{error.fault.message} at {error.position.describe}"

/-- The text of several lexical errors, one a line. -/
def report (errors : List LexError) : String :=
  "\n".intercalate (errors.map message)

end LexError

/-- What a text holds at one place: a token, or an error. -/
abbrev LexItem := Except LexError Token

/-- The item that a lexeme makes at its place. -/
def Lexeme.item (lexeme : Lexeme) (position : Position) : LexItem :=
  match lexeme.verdict with
  | .ok kind => .ok ⟨kind, String.ofList lexeme.text, position⟩
  | .error fault => .error ⟨fault, position⟩

namespace LexItem

/-- The tokens among the items. -/
def tokens (items : List LexItem) : List Token :=
  items.filterMap fun
    | .ok token => some token
    | .error _ => none

/-- The errors among the items. -/
def errors (items : List LexItem) : List LexError :=
  items.filterMap fun
    | .ok _ => none
    | .error error => some error

/-- All tokens if no item is an error, and otherwise all errors. -/
def collect (items : List LexItem) : Except (List LexError) (List Token) :=
  match errors items with
  | [] => .ok (tokens items)
  | error :: others => .error (error :: others)

end LexItem

/-- The character separates lexemes and belongs to none. -/
def isBlank (character : Char) : Bool :=
  character == ' ' || character == '\t' || character == '\n' ||
    character == '\x0c' || character == '\r'

/-- The character that may mark the start of a text and is no part of it. -/
def byteOrderMark : Char :=
  '\uFEFF'

/-- A place in a text and the text after it. -/
structure Cursor where
  /-- The place. -/
  position : Position
  /-- The text after the place. -/
  rest : List Char

namespace Cursor

/-- The start of a text.  A byte order mark there fills bytes, but no column. -/
def start (source : String) : Cursor :=
  match source.toList with
  | [] => ⟨Position.origin, []⟩
  | character :: rest =>
      if character = byteOrderMark then
        ⟨⟨byteOrderMark.utf8Size, 1, 1⟩, rest⟩
      else
        ⟨Position.origin, character :: rest⟩

/-- Skip blanks and take one item, if anything is left. -/
def next? (cursor : Cursor) : Option (LexItem × Cursor) :=
  let place := cursor.position.after (cursor.rest.takeWhile isBlank)
  match cursor.rest.dropWhile isBlank with
  | [] => none
  | character :: rest =>
      let lexeme := Lexeme.munch character rest
      some
        (lexeme.item place,
          ⟨place.after lexeme.text, rest.drop lexeme.tail.length⟩)

/-- A line feed is a blank, so no lexeme that a step takes starts with one or
goes over one. -/
theorem lineFeed_not_mem_of_dropWhile_eq_cons
    {text rest : List Char}
    {head : Char}
    (remaining_eq : text.dropWhile isBlank = head :: rest) :
    '\n' ∉ (Lexeme.munch head rest).text := by
  have notBlank := List.head?_dropWhile_not isBlank text
  rw [remaining_eq] at notBlank
  apply Lexeme.lineFeed_not_mem_text_munch
  rintro rfl
  cases notBlank

/-- Every step leaves less text. -/
theorem length_rest_lt_of_next?
    {cursor following : Cursor}
    {item : LexItem}
    (stepped : cursor.next? = some (item, following)) :
    following.rest.length < cursor.rest.length := by
  unfold next? at stepped
  have shorter : (cursor.rest.dropWhile isBlank).length ≤ cursor.rest.length :=
    (List.dropWhile_suffix isBlank).length_le
  generalize cursor.rest.dropWhile isBlank = remaining at stepped shorter
  cases remaining with
  | nil => simp at stepped
  | cons character rest =>
      simp only [Option.some.injEq, Prod.mk.injEq] at stepped
      obtain ⟨_, rfl⟩ := stepped
      simp only [List.length_drop, List.length_cons] at shorter ⊢
      omega

/-- All items after the cursor. -/
def items (cursor : Cursor) : List LexItem :=
  match _ : cursor.next? with
  | none => []
  | some (item, following) => item :: following.items
termination_by cursor.rest.length
decreasing_by
  rename_i stepped
  exact length_rest_lt_of_next? stepped

/-- No items are left where no step can be made. -/
theorem items_of_next?_eq_none
    {cursor : Cursor}
    (stuck : cursor.next? = none) :
    cursor.items = [] := by
  rw [items]
  split
  · rfl
  · rename_i stepped
    rw [stuck] at stepped
    cases stepped

/-- The items after a step follow the item of the step. -/
theorem items_of_next?_eq_some
    {cursor following : Cursor}
    {item : LexItem}
    (stepped : cursor.next? = some (item, following)) :
    cursor.items = item :: following.items := by
  rw [items]
  split
  · rename_i stuck
    rw [stepped] at stuck
    cases stuck
  · rename_i steppedHere
    rw [stepped] at steppedHere
    cases steppedHere
    rfl

/-- Prove a property of all cursors from those that cannot make a step and from
what each step leaves. -/
theorem induction
    {motive : Cursor → Prop}
    (stuck : ∀ cursor, cursor.next? = none → motive cursor)
    (step : ∀ cursor item following,
      cursor.next? = some (item, following) →
        motive following → motive cursor)
    (cursor : Cursor) :
    motive cursor := by
  cases stepped : cursor.next? with
  | none => exact stuck cursor stepped
  | some taken =>
      exact step cursor taken.1 taken.2 stepped
        (induction stuck step taken.2)
termination_by cursor.rest.length
decreasing_by exact length_rest_lt_of_next? stepped

/-- At most a given number of items, and the cursor behind them. -/
def take : Nat → Cursor → List LexItem × Cursor
  | 0, cursor => ([], cursor)
  | count + 1, cursor =>
      match cursor.next? with
      | none => ([], cursor)
      | some (item, following) =>
          let (others, final) := take count following
          (item :: others, final)

end Cursor

/-- All items of a text. -/
def LexItem.ofSource (source : String) : List LexItem :=
  (Cursor.start source).items

/-- The tokens of a text that holds no error, and otherwise its errors. -/
def Token.ofSource (source : String) : Except (List LexError) (List Token) :=
  LexItem.collect (LexItem.ofSource source)

end ConditionalAssignment
