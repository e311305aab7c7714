import ConditionalAssignment.Proofs.Bracket.Blame
import ConditionalAssignment.Proofs.Bracket.Words
import ConditionalAssignment.Proofs.Lexing.Place
import Mathlib

/-!
# The place of the bracket to blame

The check of the brackets and the scanner each count lines and columns on their
own.  No lexeme but a bracket itself holds a bracket, so every bracket of a text
is a token of its own, whatever errors stand around it, and the bracket to blame
is one of these.  Both name the same place, with one exception: the check counts
a byte order mark in front of the text as a character of the first line.
-/

namespace ConditionalAssignment

/-! ## Every bracket is a token -/

namespace Lexeme

/-- Behind its first character a lexeme holds no bracket. -/
theorem isBracket_of_mem_tail_munch
    {head character : Char}
    {rest : List Char}
    (member : character ∈ (munch head rest).tail) :
    isBracket character = false := by
  obtain isAlphanum | isOther := isAlphanum_or_mem_of_mem_tail_munch member
  · exact isBracket_of_isAlphanum isAlphanum
  · simp only [List.mem_cons, List.not_mem_nil, or_false] at isOther
    obtain rfl | rfl | rfl | rfl := isOther <;> rfl

/-- A bracket is a lexeme of its own. -/
theorem munch_bracket
    {character : Char}
    {kind : TokenKind}
    (bracket : isBracket character = true)
    (found : TokenKind.ofSymbol? character = some kind)
    (rest : List Char) :
    munch character rest = ⟨character, [], .ok kind⟩ := by
  have noAlphanum : ¬ character.isAlphanum = true := by
    intro isAlphanum
    rw [isBracket_of_isAlphanum isAlphanum] at bracket
    cases bracket
  have noAlpha : ¬ character.isAlpha = true :=
    mt isAlphanum_of_isAlpha noAlphanum
  have noDigit : ¬ character.isDigit = true :=
    mt isAlphanum_of_isDigit noAlphanum
  have noColon : character ≠ ':' := by
    rintro rfl
    cases bracket
  rw [munch, if_neg noAlpha, if_neg noDigit, if_neg noColon, symbol, found]

end Lexeme

/-- An element that is not in the first part of a list is in the second one. -/
theorem exists_of_append_eq_append_cons
    {α : Type}
    {first second before after : List α}
    {element : α}
    (notMember : element ∉ first)
    (whole_eq : first ++ second = before ++ element :: after) :
    ∃ between,
      before = first ++ between ∧ second = between ++ element :: after := by
  obtain ⟨between, before_eq, second_eq⟩ | ⟨between, rfl, cons_eq⟩ :=
    List.append_eq_append_iff.mp whole_eq
  · exact ⟨between, before_eq, second_eq⟩
  · obtain ⟨rfl, second_eq⟩ | ⟨_, rfl, _⟩ := List.cons_eq_append_iff.mp cons_eq
    · exact ⟨[], by simp, second_eq⟩
    · simp at notMember

section

variable
  {before after : List Char}
  {character : Char}
  {kind : TokenKind}
  (bracket : isBracket character = true)
  (found : TokenKind.ofSymbol? character = some kind)
include bracket found

/-- Every bracket after a cursor is a token of its own. -/
theorem Cursor.bracket_mem_items
    {cursor : Cursor}
    (rest_eq : cursor.rest = before ++ character :: after) :
    .ok ⟨kind, String.singleton character, cursor.position.after before⟩ ∈
      cursor.items := by
  have noBlank {blank : List Char} (blankBlank : IsBlank blank) :
      character ∉ blank := by
    intro member
    have onlyBlank := List.filter_eq_nil_iff.mp blankBlank.bracketsOf_eq_nil
    exact onlyBlank character member bracket
  -- The induction is on the steps of the cursor.  Neither the blanks of a step
  -- nor the tail of its lexeme hold the bracket, so it is the head of the lexeme
  -- or stands behind it.
  induction cursor using Cursor.induction generalizing before with
  | stuck cursor isStuck =>
      apply absurd _ (noBlank (isBlank_of_next?_eq_none isStuck))
      rw [rest_eq]
      simp
  | step cursor item following stepped inductionHypothesis =>
      obtain ⟨blank, head, rest, blankBlank, cursor_eq, rfl, following_eq⟩ :=
        exists_lexeme_of_next?_eq_some stepped
      rw [items_of_next?_eq_some stepped, List.mem_cons]
      rw [cursor_eq] at rest_eq
      obtain ⟨between, rfl, head_eq⟩ :=
        exists_of_append_eq_append_cons (noBlank blankBlank) rest_eq
      obtain ⟨rfl, head_eq⟩ | ⟨between, rfl, tail_eq⟩ :=
        List.cons_eq_append_iff.mp head_eq
      · cases head_eq
        left
        rw [Lexeme.munch_bracket bracket found, List.append_nil]
        rfl
      · right
        have noTail : character ∉ (Lexeme.munch head rest).tail := by
          intro member
          rw [Lexeme.isBracket_of_mem_tail_munch member] at bracket
          cases bracket
        have text_eq := Lexeme.text_munch_append_drop head rest
        rw [Lexeme.text, Lexeme.head_munch, List.cons_append,
          List.cons.injEq] at text_eq
        obtain ⟨later, rfl, behind_eq⟩ :=
          exists_of_append_eq_append_cons noTail (text_eq.2.trans tail_eq)
        have following_rest : following.rest = later ++ character :: after := by
          rw [following_eq]
          exact behind_eq
        have place_eq :
            following.position.after later =
              cursor.position.after
                (blank ++ head :: ((Lexeme.munch head rest).tail ++ later)) := by
          rw [following_eq, Lexeme.text, Lexeme.head_munch]
          simp only [Position.after_append, Position.after_cons]
        rw [← place_eq]
        exact inductionHypothesis following_rest

/-- Every bracket of a source is a token of its own, at the place behind the
text before it. -/
theorem LexItem.bracket_mem_ofSource
    {source : String}
    (source_eq : source.toList = before ++ character :: after) :
    .ok ⟨kind, String.singleton character, Position.behind before⟩ ∈
      ofSource source := by
  have noMark : character ∉ leadingMark source.toList := by
    intro member
    obtain hasMark | ⟨noMark, _⟩ := Cursor.leadingMark_cases source
    · rw [hasMark, List.mem_singleton] at member
      rw [member] at bracket
      cases bracket
    · rw [noMark] at member
      cases member
  have marked_eq := (Cursor.start_eq source).1.symm.trans source_eq
  obtain ⟨between, rfl, rest_eq⟩ :=
    exists_of_append_eq_append_cons noMark marked_eq
  have isPrefix : between <+: (Cursor.start source).rest := by
    rw [rest_eq]
    exact List.prefix_append _ _
  rw [← Cursor.position_after_start isPrefix]
  exact Cursor.bracket_mem_items bracket found rest_eq

end

/-! ## The two ways to tell a place -/

namespace Position

/-- Counting characters from the start of a text leads to the same place as
reading it, but one column further on the first line behind a mark. -/
theorem after_origin_eq_behind (part : List Char) :
    origin.after part =
      if part.head? = some byteOrderMark ∧ (behind part).line = 1 then
        { behind part with column := (behind part).column + 1 }
      else
        behind part := by
  by_cases isMarked : part.head? = some byteOrderMark
  · obtain ⟨rest, rfl⟩ : ∃ rest, part = byteOrderMark :: rest :=
      ⟨_, List.eq_cons_of_mem_head? isMarked⟩
    have onFirstLine_iff :
        (behind (byteOrderMark :: rest)).line = 1 ↔ '\n' ∉ rest := by
      simp [behind, byteOrderMark, List.count_eq_zero]
    by_cases lineFeed : '\n' ∈ rest
    · rw [if_neg fun marked => onFirstLine_iff.mp marked.2 lineFeed,
        after_eq rfl, behind, lastLine_cons_of_mem lineFeed, withoutMark_cons,
        origin, Nat.zero_add]
    · have onLine : '\n' ∉ byteOrderMark :: rest := by
        simpa [byteOrderMark] using lineFeed
      rw [if_pos ⟨isMarked, onFirstLine_iff.mpr lineFeed⟩, after_eq rfl, behind,
        lastLine_of_not_mem onLine, withoutMark_cons,
        lastLine_of_not_mem lineFeed, origin, Nat.zero_add, List.length_cons,
        Nat.add_assoc]
  · rw [if_neg fun marked => isMarked marked.1, after_eq rfl, behind,
      withoutMark_of_unmarked isMarked, origin, Nat.zero_add]

end Position

/-! ## The token to blame -/

theorem ofSymbol?_opening (bracket : Bracket) :
    TokenKind.ofSymbol? bracket.opening = some .openBracket := by
  cases bracket <;> rfl

theorem ofSymbol?_closing (bracket : Bracket) :
    TokenKind.ofSymbol? bracket.closing = some .closeBracket := by
  cases bracket <;> rfl

/-- The word of the bracket that a fault blames. -/
def BracketFault.word : BracketFault → Word
  | .unexpectedClose close => ⟨.closeBracket, String.singleton close⟩
  | .mismatched _ close => ⟨.closeBracket, String.singleton close⟩
  | .unclosed opening => ⟨.openBracket, String.singleton opening⟩

/-- A bracket that is blamed is a bracket of the kind that its fault tells. -/
theorem BracketFault.Blames.exists_kind
    {before after : List Char}
    {blamed : Char}
    {fault : BracketFault}
    (blames : fault.Blames before blamed after) :
    isBracket blamed = true ∧
      ∃ kind,
        TokenKind.ofSymbol? blamed = some kind ∧
          fault.word = ⟨kind, String.singleton blamed⟩ := by
  cases fault with
  | unexpectedClose close =>
      obtain ⟨rfl, ⟨bracket, rfl⟩, _⟩ := blames
      exact ⟨isBracket_closing bracket, _, ofSymbol?_closing bracket, rfl⟩
  | mismatched opening close =>
      obtain ⟨rfl, ⟨_, bracket, _, rfl, _⟩, _⟩ := blames
      exact ⟨isBracket_closing bracket, _, ofSymbol?_closing bracket, rfl⟩
  | unclosed opening =>
      obtain ⟨rfl, ⟨bracket, rfl⟩, _⟩ := blames
      exact ⟨isBracket_opening bracket, _, ofSymbol?_opening bracket, rfl⟩

namespace Balance

/-- The bracket that a failed check blames is a token of the text, and the check
names its place, but one column further on the first line behind a mark. -/
theorem check_blames_token
    {source : String}
    {error : BracketError}
    (failed : check source = .error error) :
    ∃ token,
      .ok token ∈ LexItem.ofSource source ∧
        token.word = error.fault.word ∧
          error.position =
            if source.toList.head? = some byteOrderMark ∧
                token.position.line = 1 then
              { token.position with column := token.position.column + 1 }
            else
              token.position := by
  have blames := check_leaves source
  rw [failed] at blames
  obtain ⟨before, blamed, after, source_eq, position_eq, blames⟩ := blames
  obtain ⟨bracket, kind, found, word_eq⟩ := blames.exists_kind
  have member := LexItem.bracket_mem_ofSource bracket found source_eq
  refine ⟨_, member, word_eq.symm, ?_⟩
  -- The blamed bracket is no mark, so a mark stands in front of the source
  -- exactly if it stands in front of the text before the bracket.
  have marked_iff :
      before.head? = some byteOrderMark ↔
        source.toList.head? = some byteOrderMark := by
    have noMark : blamed ≠ byteOrderMark := by
      rintro rfl
      cases bracket
    rw [source_eq]
    cases before with
    | nil => simp [noMark]
    | cons first others => rfl
  rw [position_eq, Position.after_origin_eq_behind]
  exact if_congr (and_congr_left' marked_iff) rfl rfl

/-- A bracket on the second line of a text with a mark. -/
theorem check_blames_token_second_line :
    check "\uFEFF(\né]" = .error ⟨.mismatched '(' ']', ⟨7, 2, 2⟩⟩ ∧
      ∃ token,
        .ok token ∈ LexItem.ofSource "\uFEFF(\né]" ∧
          token.word = ⟨.closeBracket, "]"⟩ ∧
            ⟨7, 2, 2⟩ =
              if "\uFEFF(\né]".toList.head? = some byteOrderMark ∧
                  token.position.line = 1 then
                { token.position with column := token.position.column + 1 }
              else
                token.position := by
  have failed :
      check "\uFEFF(\né]" = .error ⟨.mismatched '(' ']', ⟨7, 2, 2⟩⟩ := by
    cbv
  exact ⟨failed, check_blames_token failed⟩

/-- The check and the scanner do not always name the same place. -/
theorem check_misplaces_token_behind_mark :
    ¬ ∀ source error,
      check source = .error error →
        ∃ token,
          .ok token ∈ LexItem.ofSource source ∧
            token.word = error.fault.word ∧ token.position = error.position := by
  intro agree
  have failed : check "\uFEFF(" = .error ⟨.unclosed '(', ⟨3, 1, 2⟩⟩ := by
    cbv
  have items_eq :
      LexItem.ofSource "\uFEFF(" =
        [.ok ⟨.openBracket, "(", ⟨3, 1, 1⟩⟩] := by
    cbv
  obtain ⟨token, member, _, position_eq⟩ := agree _ _ failed
  rw [items_eq, List.mem_singleton] at member
  cases member
  cases position_eq

end Balance

end ConditionalAssignment
