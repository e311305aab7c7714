import ConditionalAssignment.Proofs.Lexing.Tiling
import Mathlib

/-!
# Places of items

The scanner moves its place over one character after another.  Where it stands
depends on the text before it alone: the offset is the number of its bytes, the
line counts its line feeds, and the column counts the characters behind the last
of them.  A byte order mark in front of the text fills bytes but no column.  The
main result says that every item stands behind the text before it in this sense.
-/

namespace ConditionalAssignment

/-! ## Lines of a text -/

/-- The characters of a text behind its last line feed. -/
def lastLine (text : List Char) : List Char :=
  text.rtakeWhile (· != '\n')

@[simp] theorem lastLine_append_lineFeed (text : List Char) :
    lastLine (text ++ ['\n']) = [] := by
  simp [lastLine]

theorem lastLine_append_of_ne
    {character : Char}
    (isOther : character ≠ '\n')
    (text : List Char) :
    lastLine (text ++ [character]) = lastLine text ++ [character] := by
  simp [lastLine, isOther]

/-- A text on one line is its last line. -/
theorem lastLine_of_not_mem
    {text : List Char}
    (isLine : '\n' ∉ text) :
    lastLine text = text := by
  unfold lastLine
  rw [List.rtakeWhile_eq_self_iff]
  intro character member
  have isOther : character ≠ '\n' := by
    rintro rfl
    exact isLine member
  simpa using isOther

/-- What stands before a line feed is not in the last line. -/
theorem lastLine_cons_of_mem
    {text : List Char}
    (lineFeed : '\n' ∈ text)
    (character : Char) :
    lastLine (character :: text) = lastLine text := by
  induction text using List.reverseRecOn with
  | nil => cases lineFeed
  | append_singleton text last inductionHypothesis =>
      rw [← List.cons_append]
      by_cases isLineFeed : last = '\n'
      · rw [isLineFeed, lastLine_append_lineFeed, lastLine_append_lineFeed]
      · have earlier : '\n' ∈ text := by
          simpa [eq_comm, isLineFeed] using lineFeed
        rw [lastLine_append_of_ne isLineFeed, lastLine_append_of_ne isLineFeed,
          inductionHypothesis earlier]

namespace Position

/-- Every line feed starts a line. -/
theorem line_after (position : Position) (text : List Char) :
    (position.after text).line = position.line + text.count '\n' := by
  induction text generalizing position with
  | nil => rfl
  | cons character rest inductionHypothesis =>
      rw [after_cons, inductionHypothesis, List.count_cons]
      unfold advance
      by_cases isLineFeed : character = '\n'
      · simp [isLineFeed, Nat.add_comm, Nat.add_left_comm]
      · simp [isLineFeed]

/-- From the start of a line, the column counts the characters of the last line.
The induction is on the end of the text, where a line feed starts afresh. -/
theorem column_after
    {position : Position}
    (atLineStart : position.column = 1)
    (text : List Char) :
    (position.after text).column = 1 + (lastLine text).length := by
  induction text using List.reverseRecOn with
  | nil => exact atLineStart
  | append_singleton text character inductionHypothesis =>
      rw [after_append, after_cons, after_nil]
      unfold advance
      by_cases isLineFeed : character = '\n'
      · simp [isLineFeed]
      · rw [if_neg isLineFeed, lastLine_append_of_ne isLineFeed,
          List.length_append, List.length_singleton, inductionHypothesis,
          Nat.add_assoc]

/-- Moving over a text from the start of a line. -/
theorem after_eq
    {position : Position}
    (atLineStart : position.column = 1)
    (text : List Char) :
    position.after text =
      ⟨position.offset + (String.ofList text).utf8ByteSize,
        position.line + text.count '\n', 1 + (lastLine text).length⟩ := by
  rw [← offset_after, ← line_after, ← column_after atLineStart]

end Position

/-! ## The place behind a part of a source -/

/-- A text without the byte order mark in front of it. -/
def withoutMark (text : List Char) : List Char :=
  text.drop (leadingMark text).length

theorem withoutMark_of_unmarked
    {text : List Char}
    (unmarked : text.head? ≠ some byteOrderMark) :
    withoutMark text = text := by
  unfold withoutMark leadingMark
  rw [if_neg unmarked]
  rfl

theorem withoutMark_cons (rest : List Char) :
    withoutMark (byteOrderMark :: rest) = rest := by
  simp [withoutMark, leadingMark]

/-- The place behind the first part of a source.  A mark in front of the part
fills bytes, but no column. -/
def Position.behind (part : List Char) : Position :=
  ⟨(String.ofList part).utf8ByteSize, 1 + part.count '\n',
    1 + (lastLine (withoutMark part)).length⟩

namespace Cursor

/-- A source has a mark in front, or what is read of it starts with none. -/
theorem leadingMark_cases (source : String) :
    leadingMark source.toList = [byteOrderMark] ∨
      leadingMark source.toList = [] ∧
        (start source).rest.head? ≠ some byteOrderMark := by
  unfold leadingMark start
  cases source.toList with
  | nil => simp
  | cons character rest =>
      by_cases isMark : character = byteOrderMark
      · simp [isMark]
      · simp [isMark]

/-- Reading starts in the first column of the first line. -/
theorem position_start (source : String) :
    (start source).position =
      ⟨(String.ofList (leadingMark source.toList)).utf8ByteSize, 1, 1⟩ := by
  unfold start leadingMark
  cases source.toList with
  | nil => rfl
  | cons character rest =>
      by_cases isMark : character = byteOrderMark
      · simp [isMark]
      · simp [isMark, Position.origin]

/-- Behind the mark of a source nothing more is taken for a mark. -/
theorem withoutMark_leadingMark_append
    {source : String}
    {part : List Char}
    (isPrefix : part <+: (start source).rest) :
    withoutMark (leadingMark source.toList ++ part) = part := by
  obtain hasMark | ⟨noMark, unmarked⟩ := leadingMark_cases source
  · rw [hasMark]
    exact withoutMark_cons part
  · rw [noMark, List.nil_append]
    apply withoutMark_of_unmarked
    intro startsMarked
    obtain ⟨behind, rest_eq⟩ := isPrefix
    rw [← rest_eq, List.head?_append, startsMarked] at unmarked
    exact unmarked rfl

/-- The scanner stands behind what it has read and the mark. -/
theorem position_after_start
    {source : String}
    {part : List Char}
    (isPrefix : part <+: (start source).rest) :
    (start source).position.after part =
      Position.behind (leadingMark source.toList ++ part) := by
  have noLineFeed : (leadingMark source.toList).count '\n' = 0 := by
    obtain hasMark | ⟨noMark, _⟩ := leadingMark_cases source
    · rw [hasMark]
      decide
    · rw [noMark]
      rfl
  have atLineStart : (start source).position.column = 1 := by
    rw [position_start]
  rw [Position.after_eq atLineStart, position_start, Position.behind,
    withoutMark_leadingMark_append isPrefix, List.count_append, noLineFeed,
    String.ofList_append, String.utf8ByteSize_append, Nat.zero_add]

/-- At its end the scanner stands behind the whole source. -/
theorem position_after_rest (source : String) :
    (start source).position.after (start source).rest =
      Position.behind source.toList := by
  rw [position_after_start List.prefix_rfl, ← (start_eq source).1]

/-- Every item is a lexeme of the text from its place on. -/
theorem exists_munch_of_mem_items
    {cursor : Cursor}
    {item : LexItem}
    (member : item ∈ cursor.items) :
    ∃ before head rest,
      cursor.rest = before ++ head :: rest ∧
        item =
          (Lexeme.munch head rest).item (cursor.position.after before) := by
  induction cursor using Cursor.induction with
  | stuck cursor isStuck =>
      rw [items_of_next?_eq_none isStuck] at member
      cases member
  | step cursor first following stepped inductionHypothesis =>
      obtain ⟨blank, head, rest, _, rest_eq, first_eq, following_eq⟩ :=
        exists_lexeme_of_next?_eq_some stepped
      rw [items_of_next?_eq_some stepped] at member
      obtain rfl | later := List.mem_cons.mp member
      · exact ⟨blank, head, rest, rest_eq, first_eq⟩
      · obtain ⟨between, laterHead, laterRest, between_eq, item_eq⟩ :=
          inductionHypothesis later
        have whole_eq := Lexeme.text_munch_append_drop head rest
        rw [following_eq] at between_eq item_eq
        dsimp only at between_eq item_eq
        refine
          ⟨blank ++ ((Lexeme.munch head rest).text ++ between), laterHead,
            laterRest, ?_, ?_⟩
        · rw [rest_eq, ← whole_eq, between_eq]
          simp only [List.append_assoc]
        · rw [item_eq]
          simp only [Position.after_append]

end Cursor

/-- Every item of a source is a lexeme of the text from its place on. -/
theorem LexItem.exists_munch_of_mem_ofSource
    {source : String}
    {item : LexItem}
    (member : item ∈ LexItem.ofSource source) :
    ∃ before head rest,
      source.toList = before ++ head :: rest ∧
        item = (Lexeme.munch head rest).item (Position.behind before) := by
  obtain ⟨source_eq, _⟩ := Cursor.start_eq source
  obtain ⟨before, head, rest, rest_eq, item_eq⟩ :=
    Cursor.exists_munch_of_mem_items member
  have isPrefix : before <+: (Cursor.start source).rest := by
    rw [rest_eq]
    exact List.prefix_append _ _
  refine ⟨leadingMark source.toList ++ before, head, rest, ?_, ?_⟩
  · rw [List.append_assoc, ← rest_eq]
    exact source_eq
  · rw [item_eq, Cursor.position_after_start isPrefix]

/-- Every item of a source stands at the place behind the text before it, and
its lexeme is at the front of the text from there on. -/
theorem LexItem.ofSource_stands_behind
    {source : String}
    {item : LexItem}
    (member : item ∈ LexItem.ofSource source) :
    ∃ before after,
      source.toList = before ++ (item.text ++ after) ∧
        item.position = Position.behind before := by
  obtain ⟨before, head, rest, source_eq, item_eq⟩ :=
    LexItem.exists_munch_of_mem_ofSource member
  refine
    ⟨before, rest.drop (Lexeme.munch head rest).tail.length, ?_, ?_⟩
  · rw [item_eq, Lexeme.text_item (Lexeme.namesFault_munch head rest),
      Lexeme.text_munch_append_drop]
    exact source_eq
  · rw [item_eq, Lexeme.position_item]

/-- An error behind a mark, characters of several bytes and a line feed. -/
theorem LexItem.ofSource_stands_behind_mark :
    .error ⟨.malformedConstant "1.5.2", ⟨12, 2, 3⟩⟩ ∈
        LexItem.ofSource "\uFEFFx é\n\uFEFF 1.5.2" ∧
      ∃ before after,
        "\uFEFFx é\n\uFEFF 1.5.2".toList =
            before ++ ("1.5.2".toList ++ after) ∧
          ⟨12, 2, 3⟩ = Position.behind before := by
  have member :
      .error ⟨.malformedConstant "1.5.2", ⟨12, 2, 3⟩⟩ ∈
        LexItem.ofSource "\uFEFFx é\n\uFEFF 1.5.2" := by
    have items_eq :
        LexItem.ofSource "\uFEFFx é\n\uFEFF 1.5.2" =
          [.ok ⟨.identifier, "x", ⟨3, 1, 1⟩⟩,
            .error ⟨.unexpectedCharacter 'é', ⟨5, 1, 3⟩⟩,
            .error ⟨.unexpectedCharacter '\uFEFF', ⟨8, 2, 1⟩⟩,
            .error ⟨.malformedConstant "1.5.2", ⟨12, 2, 3⟩⟩] := by
      cbv
    rw [items_eq]
    simp
  exact ⟨member, ofSource_stands_behind member⟩

end ConditionalAssignment
