import ConditionalAssignment.Proofs.Lexing.Munch

/-!
# Texts that spell words

A text spells a list of valid words if it consists of their texts in order, with
blanks before, between and behind them, and no word is followed by a character
that would change how it is read.  The main results say that the tokens of a
text without lexical errors are exactly the words that the text spells.
-/

namespace ConditionalAssignment

/-- The text consists of blanks. -/
def IsBlank (text : List Char) : Prop :=
  ∀ character ∈ text, isBlank character = true

theorem IsBlank.nil : IsBlank [] := by
  intro character member
  cases member

theorem IsBlank.space : IsBlank [' '] := by
  intro character member
  rw [List.mem_singleton.mp member]
  rfl

/-- The text consists of the texts of the words, kept apart where needed. -/
inductive Spells : List Char → List Word → Prop
  | blank {blank : List Char} :
      IsBlank blank → Spells blank []
  | word {blank rest : List Char} {first : Word} {others : List Word} :
      IsBlank blank → first.IsValid → Stops first.clings rest →
        Spells rest others →
          Spells (blank ++ (first.text.toList ++ rest)) (first :: others)

namespace Spells

theorem isValid_of_mem
    {text : List Char}
    {words : List Word}
    (spells : Spells text words)
    {word : Word}
    (member : word ∈ words) :
    word.IsValid := by
  induction spells with
  | blank _ => cases member
  | word _ firstValid _ _ inductionHypothesis =>
      rcases List.mem_cons.mp member with rfl | laterMember
      · exact firstValid
      · exact inductionHypothesis laterMember

/-! ## Putting texts together -/

theorem nil : Spells [] [] :=
  blank IsBlank.nil

/-- A valid word in front, with no blank before it. -/
theorem cons
    {first : Word}
    {rest : List Char}
    {others : List Word}
    (isValid : first.IsValid)
    (stops : Stops first.clings rest)
    (spells : Spells rest others) :
    Spells (first.text.toList ++ rest) (first :: others) :=
  word IsBlank.nil isValid stops spells

/-- Blanks in front change nothing. -/
theorem prepend_blank
    {blank text : List Char}
    {words : List Word}
    (isBlank : IsBlank blank)
    (spells : Spells text words) :
    Spells (blank ++ text) words := by
  have isBlank_append {other : List Char} (otherBlank : IsBlank other) :
      IsBlank (blank ++ other) := by
    intro character member
    rcases List.mem_append.mp member with memberLeft | memberRight
    · exact isBlank character memberLeft
    · exact otherBlank character memberRight
  cases spells with
  | blank otherBlank => exact .blank (isBlank_append otherBlank)
  | word otherBlank isValid stops restSpells =>
      rw [← List.append_assoc]
      exact .word (isBlank_append otherBlank) isValid stops restSpells

/-- A space in front changes nothing. -/
theorem prepend_space
    {text : List Char}
    {words : List Word}
    (spells : Spells text words) :
    Spells (' ' :: text) words :=
  prepend_blank IsBlank.space spells

/-- Two texts spell their words in turn if nothing can cling at the seam. -/
theorem append
    {first second : List Char}
    {firstWords secondWords : List Word}
    (firstSpells : Spells first firstWords)
    (secondSpells : Spells second secondWords)
    (stops : Stops Numeral.clings second) :
    Spells (first ++ second) (firstWords ++ secondWords) := by
  induction firstSpells with
  | blank isBlank => exact prepend_blank isBlank secondSpells
  | @word blank rest word others isBlank isValid stopsRest _
      inductionHypothesis =>
      rw [List.append_assoc, List.append_assoc]
      refine .word isBlank isValid ?_ inductionHypothesis
      cases rest with
      | nil => exact stops.mono fun _ => Word.numeral_clings_of_clings
      | cons character others => exact stopsRest

end Spells

/-! ## One step of a cursor -/

namespace Cursor

theorem next?_of_isBlank
    {cursor : Cursor}
    (isBlank : IsBlank cursor.rest) :
    cursor.next? = none := by
  have dropped : cursor.rest.dropWhile ConditionalAssignment.isBlank = [] := by
    rw [← List.append_nil cursor.rest, List.dropWhile_append_of_pos isBlank]
    rfl
  unfold next?
  rw [dropped]

theorem next?_of_word
    {cursor : Cursor}
    {blank rest : List Char}
    {word : Word}
    (isBlank : IsBlank blank)
    (isValid : word.IsValid)
    (stops : Stops word.clings rest)
    (rest_eq : cursor.rest = blank ++ (word.text.toList ++ rest)) :
    ∃ token following,
      cursor.next? = some (.ok token, following) ∧ token.word = word ∧
        following.rest = rest := by
  obtain ⟨head, tail, text_eq, headNotBlank, munch_eq⟩ :=
    Lexeme.takes_of_isValid isValid stops
  have dropped :
      cursor.rest.dropWhile ConditionalAssignment.isBlank =
        head :: (tail ++ rest) := by
    rw [rest_eq, List.dropWhile_append_of_pos isBlank, text_eq]
    simp [headNotBlank]
  unfold next?
  rw [dropped]
  simp only [munch_eq, Lexeme.item, List.drop_left, Option.some.injEq,
    Prod.mk.injEq, Except.ok.injEq]
  refine ⟨_, _, ⟨rfl, rfl⟩, ?_, rfl⟩
  simp only [Token.word, Lexeme.text, ← text_eq, String.ofList_toList]

theorem isBlank_of_next?_eq_none
    {cursor : Cursor}
    (stuck : cursor.next? = none) :
    IsBlank cursor.rest := by
  have split :=
    List.takeWhile_append_dropWhile (p := isBlank) (l := cursor.rest)
  have taken := List.all_takeWhile (p := isBlank) (l := cursor.rest)
  unfold next? at stuck
  generalize cursor.rest.dropWhile isBlank = remaining at stuck split
  cases remaining with
  | nil =>
      rw [← split, List.append_nil]
      exact List.all_eq_true.mp taken
  | cons character rest => cases stuck

/-- A step skips blanks and takes the lexeme behind them. -/
theorem exists_lexeme_of_next?_eq_some
    {cursor following : Cursor}
    {item : LexItem}
    (stepped : cursor.next? = some (item, following)) :
    ∃ blank head rest,
      IsBlank blank ∧ cursor.rest = blank ++ head :: rest ∧
        item = (Lexeme.munch head rest).item (cursor.position.after blank) ∧
          following =
            ⟨(cursor.position.after blank).after (Lexeme.munch head rest).text,
              rest.drop (Lexeme.munch head rest).tail.length⟩ := by
  have split :=
    List.takeWhile_append_dropWhile (p := isBlank) (l := cursor.rest)
  have taken := List.all_takeWhile (p := isBlank) (l := cursor.rest)
  unfold next? at stepped
  generalize cursor.rest.dropWhile isBlank = remaining at stepped split
  cases remaining with
  | nil => cases stepped
  | cons head rest =>
      cases stepped
      exact ⟨_, head, rest, List.all_eq_true.mp taken, split.symm, rfl, rfl⟩

/-- A step that gives a token takes blanks and a valid word. -/
theorem exists_word_of_next?_eq_some
    {cursor following : Cursor}
    {token : Token}
    (stepped : cursor.next? = some (.ok token, following)) :
    ∃ blank,
      IsBlank blank ∧ token.word.IsValid ∧
        Stops token.word.clings following.rest ∧
          cursor.rest =
            blank ++ (token.word.text.toList ++ following.rest) := by
  obtain ⟨blank, head, rest, isBlank, rest_eq, item_eq, rfl⟩ :=
    exists_lexeme_of_next?_eq_some stepped
  have whole := Lexeme.text_munch_append_drop head rest
  have makesWord := Lexeme.makesWord_munch head rest
  generalize Lexeme.munch head rest = lexeme at item_eq whole makesWord ⊢
  unfold Lexeme.item at item_eq
  cases verdict : lexeme.verdict with
  | error fault => simp [verdict] at item_eq
  | ok kind =>
      obtain ⟨isValid, stops⟩ := makesWord kind verdict
      simp only [verdict, Except.ok.injEq] at item_eq
      subst item_eq
      refine ⟨blank, isBlank, isValid, stops, ?_⟩
      rw [rest_eq, Token.text_word, String.toList_ofList, whole]

end Cursor

/-! ## All items of a text -/

/-- A text that spells words gives exactly their tokens. -/
theorem Spells.items_eq
    {text : List Char}
    {words : List Word}
    (spells : Spells text words)
    {cursor : Cursor}
    (rest_eq : cursor.rest = text) :
    ∃ tokens : List Token,
      cursor.items = tokens.map .ok ∧ tokens.map Token.word = words := by
  induction spells generalizing cursor with
  | blank isBlank =>
      rw [← rest_eq] at isBlank
      refine ⟨[], ?_, rfl⟩
      exact Cursor.items_of_next?_eq_none (Cursor.next?_of_isBlank isBlank)
  | word isBlank isValid stops _ inductionHypothesis =>
      obtain ⟨token, following, stepped, word_eq, following_eq⟩ :=
        Cursor.next?_of_word isBlank isValid stops rest_eq
      obtain ⟨tokens, items_eq, words_eq⟩ := inductionHypothesis following_eq
      refine ⟨token :: tokens, ?_, ?_⟩
      · rw [Cursor.items_of_next?_eq_some stepped, items_eq, List.map_cons]
      · rw [List.map_cons, word_eq, words_eq]

/-- A text that gives tokens only spells their words. -/
theorem Cursor.spells_of_items_eq
    {tokens : List Token}
    {cursor : Cursor}
    (items_eq : cursor.items = tokens.map .ok) :
    Spells cursor.rest (tokens.map Token.word) := by
  induction cursor using Cursor.induction generalizing tokens with
  | stuck cursor isStuck =>
      rw [items_of_next?_eq_none isStuck] at items_eq
      rw [List.map_eq_nil_iff.mp items_eq.symm]
      exact .blank (isBlank_of_next?_eq_none isStuck)
  | step cursor item following stepped inductionHypothesis =>
      rw [items_of_next?_eq_some stepped] at items_eq
      obtain ⟨token, others, rfl, rfl, others_eq⟩ :=
        List.map_eq_cons_iff.mp items_eq.symm
      obtain ⟨blank, isBlank, isValid, stops, cursor_eq⟩ :=
        exists_word_of_next?_eq_some stepped
      rw [cursor_eq]
      exact .word isBlank isValid stops (inductionHypothesis others_eq.symm)

namespace LexItem

/-- Items are collected into tokens exactly if all of them are tokens. -/
theorem collect_eq_ok_iff
    {items : List LexItem}
    {found : List Token} :
    collect items = .ok found ↔ items = found.map .ok := by
  have tokens_of_errors (noErrors : errors items = []) :
      items = (tokens items).map .ok := by
    induction items with
    | nil => rfl
    | cons item others inductionHypothesis =>
        cases item with
        | ok token =>
            have othersFound := inductionHypothesis noErrors
            simpa [tokens] using othersFound
        | error error => cases noErrors
  constructor
  · intro collected
    unfold collect at collected
    split at collected
    · rename_i noErrors
      cases collected
      exact tokens_of_errors noErrors
    · cases collected
  · rintro rfl
    have noErrors : errors (found.map .ok) = [] := by
      simp [errors]
    have found_eq : tokens (found.map .ok) = found := by
      unfold tokens
      rw [List.filterMap_map]
      exact List.filterMap_some
    rw [collect, noErrors, found_eq]

end LexItem

/-! ## Tokens of a source -/

/-- Blanks do not start with a byte order mark. -/
theorem IsBlank.head?_ne_byteOrderMark
    {blank : List Char}
    (isBlank : IsBlank blank) :
    blank.head? ≠ some byteOrderMark := by
  intro marked
  have markBlank := isBlank byteOrderMark (List.mem_of_head? marked)
  exact absurd markBlank (by decide)

/-- A text that spells words does not start with a byte order mark. -/
theorem Spells.head?_ne_byteOrderMark
    {text : List Char}
    {words : List Word}
    (spells : Spells text words) :
    text.head? ≠ some byteOrderMark := by
  cases spells with
  | blank isBlank => exact isBlank.head?_ne_byteOrderMark
  | @word blank rest word _ isBlank isValid stops _ =>
      cases blank with
      | cons character others =>
          have noMark := isBlank.head?_ne_byteOrderMark
          exact noMark
      | nil =>
          obtain ⟨head, tail, text_eq, _, munch_eq⟩ :=
            Lexeme.takes_of_isValid isValid stops
          rw [text_eq]
          rintro marked
          cases marked
          have verdict_eq := congrArg Lexeme.verdict munch_eq
          cases verdict_eq

/-- Reading a source without a mark starts at its first character. -/
theorem Cursor.start_of_unmarked
    {source : String}
    (unmarked : source.toList.head? ≠ some byteOrderMark) :
    start source = ⟨Position.origin, source.toList⟩ := by
  unfold start
  cases text_eq : source.toList with
  | nil => rfl
  | cons character rest =>
      rw [text_eq] at unmarked
      have noMark : character ≠ byteOrderMark := by
        rintro rfl
        exact unmarked rfl
      simp [noMark]

namespace Token

/-- A source that spells words has exactly their tokens. -/
theorem ofSource_of_spells
    {source : String}
    {words : List Word}
    (spells : Spells source.toList words) :
    ∃ tokens, ofSource source = .ok tokens ∧ tokens.map word = words := by
  have start_eq : (Cursor.start source).rest = source.toList := by
    rw [Cursor.start_of_unmarked spells.head?_ne_byteOrderMark]
  obtain ⟨tokens, items_eq, words_eq⟩ := spells.items_eq start_eq
  exact ⟨tokens, LexItem.collect_eq_ok_iff.mpr items_eq, words_eq⟩

/-- The text of a source that has tokens spells their words. -/
theorem spells_of_ofSource
    {source : String}
    {tokens : List Token}
    (read : ofSource source = .ok tokens) :
    Spells (Cursor.start source).rest (tokens.map word) :=
  Cursor.spells_of_items_eq (LexItem.collect_eq_ok_iff.mp read)

end Token

end ConditionalAssignment
