import ConditionalAssignment.Proofs.Lexing.Spelling

/-!
# The items of a text tile it

Splitting a text into items skips nothing but blanks and takes no character
twice, whatever errors occur.  An item tells its own lexeme: a token holds it,
and an error names it.  A tile is an item with the blanks before it; the tiles
of a text lie next to each other from its start to the blanks at its end, and
the place of an item is where the text before it ends.
-/

namespace ConditionalAssignment

/-! ## The text of an item -/

/-- The text that is at fault. -/
def LexFault.text : LexFault → List Char
  | unexpectedCharacter character => [character]
  | loneColon => [':']
  | malformedConstant text => text.toList

namespace LexItem

/-- The lexeme that an item tells of. -/
def text : LexItem → List Char
  | .ok token => token.text.toList
  | .error error => error.fault.text

/-- The place of an item. -/
def position : LexItem → Position
  | .ok token => token.position
  | .error error => error.position

end LexItem

namespace Lexeme

/-- If the lexeme makes no token, its fault names all of its text. -/
def NamesFault (lexeme : Lexeme) : Prop :=
  ∀ fault, lexeme.verdict = .error fault → fault.text = lexeme.text

theorem namesFault_numeral (digit : Char) (rest : List Char) :
    (numeral digit rest).NamesFault := by
  intro fault rejected
  unfold numeral at rejected ⊢
  dsimp only at rejected ⊢
  split at rejected
  · cases rejected
  · cases rejected
    exact String.toList_ofList

theorem namesFault_colon (rest : List Char) :
    (colon rest).NamesFault := by
  intro fault rejected
  unfold colon at rejected ⊢
  split at rejected
  · cases rejected
  · cases rejected
    rfl

theorem namesFault_symbol (character : Char) :
    (symbol character).NamesFault := by
  intro fault rejected
  unfold symbol at rejected ⊢
  split at rejected
  · cases rejected
  · cases rejected
    rfl

/-- Every lexeme that makes no token is named by its fault. -/
theorem namesFault_munch (character : Char) (rest : List Char) :
    (munch character rest).NamesFault := by
  unfold munch
  split
  · intro fault impossible
    cases impossible
  · split
    · exact namesFault_numeral character rest
    · split
      · exact namesFault_colon rest
      · exact namesFault_symbol character

/-- The item of a lexeme tells of the whole lexeme. -/
theorem text_item
    {lexeme : Lexeme}
    (namesFault : lexeme.NamesFault)
    (position : Position) :
    LexItem.text (lexeme.item position) = lexeme.text := by
  unfold item
  cases verdict : lexeme.verdict with
  | ok kind => exact String.toList_ofList
  | error fault => exact namesFault fault verdict

@[simp] theorem position_item (lexeme : Lexeme) (position : Position) :
    LexItem.position (lexeme.item position) = position := by
  unfold item
  split <;> rfl

end Lexeme

/-! ## Tiles -/

/-- An item and the blanks between it and the text before. -/
structure Tile where
  /-- The blanks before the lexeme. -/
  blank : List Char
  /-- The item that the lexeme makes. -/
  item : LexItem

namespace Tile

/-- The text that a tile covers. -/
def text (tile : Tile) : List Char :=
  tile.blank ++ tile.item.text

/-- The tiles lie next to each other from a place on.  Each has a lexeme that
is not empty, and its item stands behind the blanks. -/
def LieFrom : Position → List Tile → Prop
  | _, [] => True
  | start, tile :: others =>
      IsBlank tile.blank ∧ tile.item.text ≠ [] ∧
        tile.item.position = start.after tile.blank ∧
          LieFrom (start.after tile.text) others

/-- Every one of the tiles stands where the text of those before it ends. -/
theorem LieFrom.at_append
    {start : Position}
    {before after : List Tile}
    {tile : Tile}
    (lie : LieFrom start (before ++ tile :: after)) :
    IsBlank tile.blank ∧ tile.item.text ≠ [] ∧
      tile.item.position =
        start.after (before.flatMap text ++ tile.blank) := by
  induction before generalizing start with
  | nil =>
      obtain ⟨isBlank, nonempty, position_eq, _⟩ := lie
      exact ⟨isBlank, nonempty, position_eq⟩
  | cons first others inductionHypothesis =>
      obtain ⟨_, _, _, othersLie⟩ := lie
      obtain ⟨isBlank, nonempty, position_eq⟩ := inductionHypothesis othersLie
      -- The others start where the first tile ends, so going on from there is
      -- going over the text of both.
      refine ⟨isBlank, nonempty, ?_⟩
      rw [position_eq, List.flatMap_cons, List.append_assoc,
        Position.after_append start first.text]

theorem LieFrom.offset_le
    {start : Position}
    {tiles : List Tile}
    (lie : LieFrom start tiles) :
    ∀ tile ∈ tiles, start.offset ≤ tile.item.position.offset := by
  induction tiles generalizing start with
  | nil => simp
  | cons first others inductionHypothesis =>
      obtain ⟨_, _, position_eq, othersLie⟩ := lie
      rw [List.forall_mem_cons]
      constructor
      · rw [position_eq, Position.offset_after]
        exact Nat.le_add_right _ _
      · intro tile member
        have endBefore := inductionHypothesis othersLie tile member
        rw [Position.offset_after] at endBefore
        exact Nat.le_trans (Nat.le_add_right _ _) endBefore

/-- Every item stands behind the ones before it, since each has a lexeme. -/
theorem LieFrom.pairwise_offset
    {start : Position}
    {tiles : List Tile}
    (lie : LieFrom start tiles) :
    tiles.Pairwise fun left right =>
      left.item.position.offset < right.item.position.offset := by
  induction tiles generalizing start with
  | nil => exact .nil
  | cons first others inductionHypothesis =>
      obtain ⟨_, nonempty, position_eq, othersLie⟩ := lie
      refine List.pairwise_cons.mpr ⟨?_, inductionHypothesis othersLie⟩
      intro tile member
      have hasBytes : 0 < (String.ofList first.item.text).utf8ByteSize := by
        obtain ⟨character, rest, text_eq⟩ :=
          List.exists_cons_of_ne_nil nonempty
        rw [text_eq, String.ofList_cons, String.utf8ByteSize_append,
          String.utf8ByteSize_singleton]
        exact Nat.add_pos_left character.utf8Size_pos _
      have endBefore := othersLie.offset_le tile member
      rw [text, Position.after_append, Position.offset_after,
        ← position_eq] at endBefore
      omega

end Tile

namespace Cursor

/-- A step takes one tile and moves to its end. -/
theorem exists_tile_of_next?_eq_some
    {cursor following : Cursor}
    {item : LexItem}
    (stepped : cursor.next? = some (item, following)) :
    ∃ blank,
      IsBlank blank ∧ item.text ≠ [] ∧
        item.position = cursor.position.after blank ∧
          cursor.rest = (Tile.mk blank item).text ++ following.rest ∧
            following.position =
              cursor.position.after (Tile.mk blank item).text := by
  obtain ⟨blank, head, rest, isBlank, rest_eq, rfl, rfl⟩ :=
    exists_lexeme_of_next?_eq_some stepped
  have text_eq :=
    Lexeme.text_item (Lexeme.namesFault_munch head rest)
      (cursor.position.after blank)
  refine ⟨blank, isBlank, ?_, Lexeme.position_item _ _, ?_, ?_⟩
  · rw [text_eq]
    exact List.cons_ne_nil _ _
  · rw [rest_eq, Tile.text, text_eq, List.append_assoc,
      Lexeme.text_munch_append_drop]
  · rw [Tile.text, text_eq, Position.after_append]

/-- The items after a cursor tile the text after it up to blanks. -/
theorem exists_tiles (cursor : Cursor) :
    ∃ tiles trail,
      cursor.items = tiles.map Tile.item ∧
        cursor.rest = tiles.flatMap Tile.text ++ trail ∧ IsBlank trail ∧
          Tile.LieFrom cursor.position tiles := by
  induction cursor using Cursor.induction with
  | stuck cursor isStuck =>
      exact ⟨[], cursor.rest, items_of_next?_eq_none isStuck, rfl,
        isBlank_of_next?_eq_none isStuck, trivial⟩
  | step cursor item following stepped inductionHypothesis =>
      obtain ⟨blank, isBlank, nonempty, position_eq, rest_eq, end_eq⟩ :=
        exists_tile_of_next?_eq_some stepped
      obtain ⟨tiles, trail, items_eq, following_eq, trailBlank, lie⟩ :=
        inductionHypothesis
      rw [end_eq] at lie
      refine ⟨⟨blank, item⟩ :: tiles, trail, ?_, ?_, trailBlank, isBlank,
        nonempty, position_eq, lie⟩
      · rw [items_of_next?_eq_some stepped, items_eq, List.map_cons]
      · rw [rest_eq, following_eq, List.flatMap_cons, List.append_assoc]

/-- Taking as many items as there are takes all of them, and none is left. -/
theorem exists_take_length_items (cursor : Cursor) :
    ∃ final,
      cursor.take cursor.items.length = (cursor.items, final) ∧
        final.next? = none := by
  induction cursor using Cursor.induction with
  | stuck cursor isStuck =>
      rw [items_of_next?_eq_none isStuck]
      exact ⟨cursor, rfl, isStuck⟩
  | step cursor item following stepped inductionHypothesis =>
      obtain ⟨final, taken, isStuck⟩ := inductionHypothesis
      refine ⟨final, ?_, isStuck⟩
      rw [items_of_next?_eq_some stepped, List.length_cons, take, stepped]
      dsimp only
      rw [taken]

end Cursor

/-- The items of a text stand at places of their own, in order. -/
theorem LexItem.pairwise_offset (source : String) :
    (LexItem.ofSource source).Pairwise fun left right =>
      left.position.offset < right.position.offset := by
  obtain ⟨tiles, _, items_eq, _, _, lie⟩ := (Cursor.start source).exists_tiles
  rw [ofSource, items_eq, List.pairwise_map]
  exact lie.pairwise_offset

/-- The tokens of a text stand at places of their own, in order. -/
theorem Token.pairwise_offset
    {source : String}
    {tokens : List Token}
    (lexed : Token.ofSource source = .ok tokens) :
    tokens.Pairwise fun left right =>
      left.position.offset < right.position.offset := by
  have ordered := LexItem.pairwise_offset source
  rw [LexItem.collect_eq_ok_iff.mp lexed, List.pairwise_map] at ordered
  exact ordered

/-! ## The tiles of a source -/

/-- The byte order mark in front of a text, if there is one. -/
def leadingMark (text : List Char) : List Char :=
  if text.head? = some byteOrderMark then [byteOrderMark] else []

/-- Reading starts behind the mark and counts its bytes. -/
theorem Cursor.start_eq (source : String) :
    source.toList = leadingMark source.toList ++ (start source).rest ∧
      (start source).position.offset =
        (String.ofList (leadingMark source.toList)).utf8ByteSize := by
  unfold start leadingMark
  cases source.toList with
  | nil => exact ⟨rfl, rfl⟩
  | cons character rest =>
      by_cases isMark : character = byteOrderMark
      · simp [isMark]
      · simp [isMark, Position.origin]

/-- A text consists of a mark, if it has one, and of the lexemes of its items
in order, with nothing but blanks before, between and behind them.  Every item
stands at the number of bytes before its lexeme, and taking items one by one
comes to an end behind the last of them. -/
theorem LexItem.ofSource_tiles (source : String) :
    ∃ tiles trail,
      LexItem.ofSource source = tiles.map Tile.item ∧
        source.toList =
            leadingMark source.toList ++
              (tiles.flatMap Tile.text ++ trail) ∧
          IsBlank trail ∧
            (∀ before tile after,
              tiles = before ++ tile :: after →
                IsBlank tile.blank ∧ tile.item.text ≠ [] ∧
                  tile.item.position.offset =
                    (String.ofList
                      (leadingMark source.toList ++
                        (before.flatMap Tile.text ++
                          tile.blank))).utf8ByteSize) ∧
              ∃ final,
                (Cursor.start source).take tiles.length =
                    (LexItem.ofSource source, final) ∧
                  final.next? = none := by
  obtain ⟨source_eq, offset_eq⟩ := Cursor.start_eq source
  obtain ⟨tiles, trail, items_eq, rest_eq, trailBlank, lie⟩ :=
    (Cursor.start source).exists_tiles
  obtain ⟨final, taken, stuck⟩ := (Cursor.start source).exists_take_length_items
  refine ⟨tiles, trail, items_eq, ?_, trailBlank, ?_, final, ?_, stuck⟩
  · rw [← rest_eq]
    exact source_eq
  · rintro before tile after rfl
    obtain ⟨isBlank, nonempty, position_eq⟩ := lie.at_append
    refine ⟨isBlank, nonempty, ?_⟩
    rw [position_eq, Position.offset_after, offset_eq]
    simp only [String.ofList_append, String.utf8ByteSize_append]
  · rw [items_eq, List.length_map] at taken
    rw [ofSource, items_eq]
    exact taken

end ConditionalAssignment
