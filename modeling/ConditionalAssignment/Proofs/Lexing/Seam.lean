import ConditionalAssignment.Proofs.Grammar.Relocation
import ConditionalAssignment.Proofs.Lexing.Place
import Mathlib

/-!
# Texts with blanks between them

A blank ends whatever stands before it, just as the end of the text does: no
scan looks past it, however far ahead it would look.  So the items of two texts
with blanks between them are those of the first text and then those of the
second one, which stand at other places but are otherwise the same.
-/

namespace ConditionalAssignment

/-! ## A blank ends every scan -/

/-- The text starts with a blank. -/
def StartsBlank (text : List Char) : Prop :=
  ∃ character ∈ text.head?, isBlank character = true

theorem StartsBlank.stops
    {text : List Char}
    (startsBlank : StartsBlank text) :
    Stops Numeral.clings text := by
  obtain ⟨blank, isHead, blankBlank⟩ := startsBlank
  intro character found
  rw [Option.mem_unique found isHead]
  exact numeral_clings_of_isBlank blankBlank

theorem StartsBlank.exists_cons
    {text : List Char}
    (startsBlank : StartsBlank text) :
    ∃ blank rest, text = blank :: rest ∧ isBlank blank = true := by
  obtain ⟨blank, isHead, blankBlank⟩ := startsBlank
  exact ⟨blank, _, List.eq_cons_of_mem_head? isHead, blankBlank⟩

theorem ne_of_isBlank
    {blank other : Char}
    (blankBlank : isBlank blank = true)
    (noBlank : isBlank other = false) :
    blank ≠ other := by
  rintro rfl
  rw [blankBlank] at noBlank
  cases noBlank

theorem IsBlank.startsBlank_append
    {blank : List Char}
    (isBlank : IsBlank blank)
    (nonempty : blank ≠ [])
    (text : List Char) :
    StartsBlank (blank ++ text) := by
  obtain ⟨character, others, rfl⟩ := List.exists_cons_of_ne_nil nonempty
  exact ⟨character, rfl, isBlank character List.mem_cons_self⟩

/-- What stops a scan also stops it at the end of a longer text. -/
theorem takeWhile_append_eq_of_stops
    {test : Char → Bool}
    {behind : List Char}
    (stops : Stops test behind)
    (text : List Char) :
    (text ++ behind).takeWhile test = text.takeWhile test := by
  induction text with
  | nil => exact takeWhile_of_stops stops
  | cons character rest inductionHypothesis =>
      cases satisfied : test character <;>
        simp [satisfied, inductionHypothesis]

/-- Dropping a part from the front keeps what stands behind the text. -/
theorem drop_length_append
    {part text : List Char}
    (isPrefix : part <+: text)
    (behind : List Char) :
    (text ++ behind).drop part.length = text.drop part.length ++ behind :=
  List.drop_append_of_le_length isPrefix.length_le

section

variable {behind : List Char} (startsBlank : StartsBlank behind)
include startsBlank

namespace Numeral

theorem digits_append_blank (text : List Char) :
    digits (text ++ behind) = digits text :=
  takeWhile_append_eq_of_stops (startsBlank.stops.mono clings_of_isDigit) text

theorem fraction_append_blank (text : List Char) :
    fraction (text ++ behind) = fraction text := by
  cases text with
  | nil =>
      obtain ⟨blank, rest, rfl, blankBlank⟩ := startsBlank.exists_cons
      have noPoint : blank ≠ '.' := ne_of_isBlank blankBlank rfl
      simp [fraction, noPoint]
  | cons character rest =>
      have digits_eq := digits_append_blank startsBlank rest
      by_cases isPoint : character = '.'
      · subst isPoint
        simp only [List.cons_append, fraction, digits_eq]
      · simp [fraction, isPoint]

theorem sign_append_blank (text : List Char) :
    sign (text ++ behind) = sign text := by
  cases text with
  | nil =>
      obtain ⟨blank, rest, rfl, blankBlank⟩ := startsBlank.exists_cons
      have noPlus : blank ≠ '+' := ne_of_isBlank blankBlank rfl
      have noMinus : blank ≠ '-' := ne_of_isBlank blankBlank rfl
      simp [sign, noPlus, noMinus]
  | cons character rest =>
      rw [List.cons_append]
      unfold sign
      split <;> split <;> simp_all

theorem exponent_append_blank (text : List Char) :
    exponent (text ++ behind) = exponent text := by
  cases text with
  | nil => exact exponent_of_stops startsBlank.stops
  | cons mark rest =>
      have sign_eq := sign_append_blank startsBlank rest
      have drop_eq := drop_length_append (isPrefix_sign rest) behind
      have digits_eq :=
        digits_append_blank startsBlank (rest.drop (sign rest).length)
      simp only [List.cons_append, exponent, sign_eq, drop_eq, digits_eq]

theorem scale_append_blank (text : List Char) :
    scale (text ++ behind) = scale text := by
  unfold scale
  rw [fraction_append_blank startsBlank,
    drop_length_append (isPrefix_fraction text),
    exponent_append_blank startsBlank]

theorem continuation_append_blank (text : List Char) :
    continuation (text ++ behind) = continuation text := by
  unfold continuation
  rw [digits_append_blank startsBlank,
    drop_length_append (isPrefix_digits text), scale_append_blank startsBlank]

end Numeral

namespace Lexeme

theorem word_append_blank (letter : Char) (rest : List Char) :
    word letter (rest ++ behind) = word letter rest := by
  have stops : Stops Char.isAlphanum behind := by
    refine startsBlank.stops.mono ?_
    intro character isAlphanum
    simp [Numeral.clings, isAlphanum]
  unfold word
  rw [takeWhile_append_eq_of_stops stops]

theorem numeral_append_blank (digit : Char) (rest : List Char) :
    numeral digit (rest ++ behind) = numeral digit rest := by
  unfold numeral
  rw [Numeral.continuation_append_blank startsBlank]
  dsimp only
  rw [drop_length_append (Numeral.isPrefix_continuation rest),
    takeWhile_append_eq_of_stops startsBlank.stops]

theorem colon_append_blank (rest : List Char) :
    colon (rest ++ behind) = colon rest := by
  cases rest with
  | nil =>
      obtain ⟨blank, others, rfl, blankBlank⟩ := startsBlank.exists_cons
      have noEquals : blank ≠ '=' := ne_of_isBlank blankBlank rfl
      simp [colon, noEquals]
  | cons character others =>
      rw [List.cons_append]
      unfold colon
      split <;> split <;> simp_all

/-- No lexeme looks past a blank. -/
theorem munch_append_blank (head : Char) (rest : List Char) :
    munch head (rest ++ behind) = munch head rest := by
  unfold munch
  rw [word_append_blank startsBlank, numeral_append_blank startsBlank,
    colon_append_blank startsBlank]

end Lexeme

namespace Cursor

/-- A step is the same when a blank and more text stand behind. -/
theorem next?_append_blank
    {cursor following : Cursor}
    {item : LexItem}
    (stepped : cursor.next? = some (item, following)) :
    (Cursor.mk cursor.position (cursor.rest ++ behind)).next? =
      some (item, ⟨following.position, following.rest ++ behind⟩) := by
  obtain ⟨head, rest, remaining⟩ :
      ∃ head rest, cursor.rest.dropWhile isBlank = head :: rest := by
    apply List.exists_cons_of_ne_nil
    intro exhausted
    simp [next?, exhausted] at stepped
  have dropped :
      (cursor.rest ++ behind).dropWhile isBlank = head :: (rest ++ behind) := by
    rw [List.dropWhile_append, remaining]
    rfl
  -- A lexeme is left, so the blanks in front of it are not the whole text.
  have taken :
      (cursor.rest ++ behind).takeWhile isBlank =
        cursor.rest.takeWhile isBlank := by
    rw [List.takeWhile_append, if_neg]
    intro all_taken
    have split :=
      List.takeWhile_append_dropWhile (p := isBlank) (l := cursor.rest)
    have lengths := congrArg List.length split
    rw [remaining, List.length_append, all_taken] at lengths
    simp at lengths
  unfold next? at stepped ⊢
  simp only [remaining, Option.some.injEq, Prod.mk.injEq] at stepped
  obtain ⟨rfl, rfl⟩ := stepped
  have drop_eq :=
    drop_length_append (Lexeme.isPrefix_tail_munch head rest) behind
  simp only [dropped, taken, Lexeme.munch_append_blank startsBlank, drop_eq]

end Cursor

end

namespace Cursor

/-- Blanks in front of a text only move the place. -/
theorem items_append_of_isBlank
    {blank : List Char}
    (isBlank : IsBlank blank)
    (position : Position)
    (rest : List Char) :
    (Cursor.mk position (blank ++ rest)).items =
      (Cursor.mk (position.after blank) rest).items := by
  have next?_eq :
      (Cursor.mk position (blank ++ rest)).next? =
        (Cursor.mk (position.after blank) rest).next? := by
    unfold next?
    simp only [List.takeWhile_append_of_pos isBlank,
      List.dropWhile_append_of_pos isBlank, Position.after_append]
  cases stepped : (Cursor.mk (position.after blank) rest).next? with
  | none =>
      rw [items_of_next?_eq_none stepped, items_of_next?_eq_none]
      rw [next?_eq, stepped]
  | some taken =>
      rw [items_of_next?_eq_some stepped, items_of_next?_eq_some]
      rw [next?_eq, stepped]

/-- The items of a text before blanks are followed by those of the text behind
them. -/
theorem items_append_blank
    {blank : List Char}
    (isBlank : IsBlank blank)
    (nonempty : blank ≠ [])
    (cursor : Cursor)
    (second : List Char) :
    (Cursor.mk cursor.position (cursor.rest ++ (blank ++ second))).items =
      cursor.items ++
        (Cursor.mk (cursor.position.after (cursor.rest ++ blank)) second).items
        := by
  have startsBlank := isBlank.startsBlank_append nonempty second
  induction cursor using Cursor.induction with
  | stuck cursor isStuck =>
      have allBlank : IsBlank (cursor.rest ++ blank) := by
        intro character member
        rcases List.mem_append.mp member with first | later
        · exact isBlank_of_next?_eq_none isStuck character first
        · exact isBlank character later
      rw [items_of_next?_eq_none isStuck, List.nil_append, ← List.append_assoc,
        items_append_of_isBlank allBlank]
  | step cursor item following stepped inductionHypothesis =>
      obtain ⟨before, _, _, _, rest_eq, end_eq⟩ :=
        exists_tile_of_next?_eq_some stepped
      have goesOn := next?_append_blank startsBlank stepped
      rw [items_of_next?_eq_some goesOn, items_of_next?_eq_some stepped,
        inductionHypothesis, List.cons_append, rest_eq, end_eq,
        List.append_assoc, Position.after_append cursor.position]

end Cursor

/-! ## Texts at other places -/

/-- A place in the second part of a source, if it is told where the place is in
the second part alone. -/
def Position.moveBehind (first : List Char) (position : Position) : Position :=
  ⟨(String.ofList first).utf8ByteSize + position.offset,
    first.count '\n' + position.line,
    if position.line = 1 then
      (lastLine (withoutMark first)).length + position.column
    else
      position.column⟩

/-- The item at the place that is given for its own. -/
def LexItem.relocate (change : Position → Position) : LexItem → LexItem
  | .ok token => .ok (token.relocate change)
  | .error error => .error { error with position := change error.position }

theorem Lexeme.relocate_item
    (change : Position → Position)
    (lexeme : Lexeme)
    (position : Position) :
    (lexeme.item position).relocate change = lexeme.item (change position) := by
  unfold item
  cases lexeme.verdict <;> rfl

namespace Position

variable (first : List Char)

/-- Moving over a character goes together with a text in front. -/
theorem advance_moveBehind
    {position : Position}
    (isPlace : 0 < position.line)
    (character : Char) :
    (position.moveBehind first).advance character =
      (position.advance character).moveBehind first := by
  unfold moveBehind advance
  by_cases isLineFeed : character = '\n'
  · -- Lines are counted from one, so a line feed leaves the first line for good.
    have later : position.line + 1 ≠ 1 := by omega
    simp only [isLineFeed, if_true, if_neg later, Nat.add_assoc]
  · by_cases onFirstLine : position.line = 1
    · simp [isLineFeed, onFirstLine, Nat.add_assoc]
    · simp [isLineFeed, onFirstLine, Nat.add_assoc]

theorem line_le_after (position : Position) (text : List Char) :
    position.line ≤ (position.after text).line := by
  rw [line_after]
  exact Nat.le_add_right _ _

theorem after_moveBehind
    {position : Position}
    (isPlace : 0 < position.line)
    (text : List Char) :
    (position.moveBehind first).after text =
      (position.after text).moveBehind first := by
  induction text generalizing position with
  | nil => rfl
  | cons character rest inductionHypothesis =>
      have stays : 0 < (position.advance character).line :=
        Nat.lt_of_lt_of_le isPlace (position.line_le_after [character])
      rw [after_cons, after_cons, advance_moveBehind first isPlace,
        inductionHypothesis stays]

/-- The start of the second part is the place behind the first one. -/
theorem moveBehind_origin : origin.moveBehind first = behind first := by
  unfold moveBehind behind origin
  simp [Nat.add_comm]

end Position

namespace Cursor

/-- With a text in front a step takes the same lexeme at another place. -/
theorem next?_moveBehind
    (first : List Char)
    {cursor : Cursor}
    (isPlace : 0 < cursor.position.line) :
    (Cursor.mk (cursor.position.moveBehind first) cursor.rest).next? =
      cursor.next?.map fun taken =>
        (taken.1.relocate (Position.moveBehind first),
          ⟨taken.2.position.moveBehind first, taken.2.rest⟩) := by
  unfold next?
  dsimp only
  cases cursor.rest.dropWhile isBlank with
  | nil => rfl
  | cons head rest =>
      have placeLater (text : List Char) :
          0 < (cursor.position.after text).line :=
        Nat.lt_of_lt_of_le isPlace (cursor.position.line_le_after text)
      simp only [Option.map_some, Lexeme.relocate_item,
        Position.after_moveBehind first isPlace,
        Position.after_moveBehind first (placeLater _)]

/-- With a text in front the items are the same at other places. -/
theorem items_moveBehind
    (first : List Char)
    (cursor : Cursor)
    (isPlace : 0 < cursor.position.line) :
    (Cursor.mk (cursor.position.moveBehind first) cursor.rest).items =
      cursor.items.map (LexItem.relocate (Position.moveBehind first)) := by
  have moved := next?_moveBehind first isPlace
  induction cursor using Cursor.induction with
  | stuck cursor isStuck =>
      rw [isStuck] at moved
      rw [items_of_next?_eq_none isStuck, items_of_next?_eq_none moved,
        List.map_nil]
  | step cursor item following stepped inductionHypothesis =>
      obtain ⟨_, _, _, _, _, end_eq⟩ := exists_tile_of_next?_eq_some stepped
      have stays : 0 < following.position.line := by
        rw [end_eq]
        exact Nat.lt_of_lt_of_le isPlace (Position.line_le_after _ _)
      rw [stepped] at moved
      rw [items_of_next?_eq_some stepped, items_of_next?_eq_some moved,
        inductionHypothesis stays (next?_moveBehind first stays), List.map_cons]

/-! ## The start of a source -/

/-- Reading starts alike when more text follows, which must not start with a
mark in case it comes to stand at the start. -/
theorem start_append
    (first : String)
    {second : String}
    (unmarked : second.toList.head? ≠ some byteOrderMark) :
    start (first ++ second) =
      ⟨(start first).position, (start first).rest ++ second.toList⟩ := by
  cases text_eq : first.toList with
  | nil =>
      obtain rfl : first = "" := String.toList_eq_nil_iff.mp text_eq
      rw [String.empty_append]
      exact start_of_unmarked unmarked
  | cons character rest =>
      unfold start
      rw [String.toList_append, text_eq, List.cons_append]
      by_cases isMark : character = byteOrderMark
      · simp [isMark]
      · simp [isMark]

end Cursor

/-- Blanks between two texts keep their items apart: the items of the whole are
those of the first text and, behind it, those of the second one. -/
theorem LexItem.ofSource_append_blank
    {first blank second : String}
    (isBlank : IsBlank blank.toList)
    (nonempty : blank ≠ "")
    (unmarked : second.toList.head? ≠ some byteOrderMark) :
    ofSource (first ++ blank ++ second) =
      ofSource first ++
        (ofSource second).map
          (relocate (Position.moveBehind (first ++ blank).toList)) := by
  have blank_ne : blank.toList ≠ [] := mt String.toList_eq_nil_iff.mp nonempty
  have before_eq := Cursor.start_append first isBlank.head?_ne_byteOrderMark
  have whole_eq := Cursor.start_append (first ++ blank) unmarked
  have seam_eq :
      (Cursor.start first).position.after
          ((Cursor.start first).rest ++ blank.toList) =
        Position.origin.moveBehind (first ++ blank).toList := by
    have atEnd := Cursor.position_after_rest (first ++ blank)
    rw [before_eq] at atEnd
    rw [atEnd, Position.moveBehind_origin]
  have second_eq :
      ofSource second = (Cursor.mk Position.origin second.toList).items := by
    rw [ofSource, Cursor.start_of_unmarked unmarked]
  have secondItems :=
    Cursor.items_moveBehind (first ++ blank).toList
      ⟨Position.origin, second.toList⟩ Nat.one_pos
  calc
    ofSource (first ++ blank ++ second)
      = (Cursor.mk (Cursor.start first).position
          ((Cursor.start first).rest ++ (blank.toList ++ second.toList))).items
        := by rw [ofSource, whole_eq, before_eq, List.append_assoc]
    _ = ofSource first ++
          (Cursor.mk (Position.origin.moveBehind (first ++ blank).toList)
            second.toList).items := by
      rw [Cursor.items_append_blank isBlank blank_ne, seam_eq, ofSource]
    _ = ofSource first ++
          (ofSource second).map
            (relocate (Position.moveBehind (first ++ blank).toList)) := by
      rw [second_eq, ← secondItems]

/-- A number that nothing follows is spoilt before a blank too, and the second
line of the second text keeps its columns. -/
theorem LexItem.ofSource_append_blank_spoilt :
    IsBlank " ".toList ∧ " " ≠ "" ∧
      "-3\n;".toList.head? ≠ some byteOrderMark ∧
        ofSource ("\uFEFFé 2e" ++ " " ++ "-3\n;") =
          ofSource "\uFEFFé 2e" ++
            [.ok ⟨.arithmetic, "-", ⟨9, 1, 6⟩⟩, .ok ⟨.constant, "3", ⟨10, 1, 7⟩⟩,
              .ok ⟨.delimiter, ";", ⟨12, 2, 1⟩⟩] := by
  have isBlank : IsBlank " ".toList := .space
  have nonempty : " " ≠ "" := by decide
  have unmarked : "-3\n;".toList.head? ≠ some byteOrderMark := by decide
  have whole_eq :
      ofSource ("\uFEFFé 2e" ++ " " ++ "-3\n;") =
        ofSource "\uFEFFé 2e" ++
          (ofSource "-3\n;").map
            (relocate (Position.moveBehind ("\uFEFFé 2e" ++ " ").toList)) :=
    ofSource_append_blank isBlank nonempty unmarked
  have moved_eq :
      (ofSource "-3\n;").map
          (relocate (Position.moveBehind ("\uFEFFé 2e" ++ " ").toList)) =
        [.ok ⟨.arithmetic, "-", ⟨9, 1, 6⟩⟩, .ok ⟨.constant, "3", ⟨10, 1, 7⟩⟩,
          .ok ⟨.delimiter, ";", ⟨12, 2, 1⟩⟩] := by
    cbv
  rw [moved_eq] at whole_eq
  exact ⟨isBlank, nonempty, unmarked, whole_eq⟩

end ConditionalAssignment
