import ConditionalAssignment.Proofs.Bracket.Words

/-!
# Tokens behind open brackets

A stretch in the middle of a balanced text need not be balanced: groups may be
open before it or left open by it.  But its closing brackets still fit, given
the families open before it.  This is what remains of the check of the brackets
when tokens are cut into parts, and it is enough for the reader, which counts
brackets without looking at their families: the bracket it finds is the one that
the check matched.
-/

namespace ConditionalAssignment

namespace Balance

/-- A text is checked one part after the other. -/
theorem openAfter_append
    (opened : List Bracket)
    (first second : List Char) :
    openAfter opened (first ++ second) =
      (openAfter opened first).bind (openAfter · second) := by
  induction first generalizing opened with
  | nil => rfl
  | cons character rest inductionHypothesis =>
      rw [List.cons_append, openAfter.eq_def,
        openAfter.eq_def opened (character :: rest)]
      dsimp only
      cases Bracket.ofOpening? character with
      | some bracket => exact inductionHypothesis _
      | none =>
          cases Bracket.ofClosing? character with
          | none => exact inductionHypothesis _
          | some bracket =>
              cases opened with
              | nil => rfl
              | cons innermost outer =>
                  by_cases fits : innermost = bracket
                  · simp only [fits, if_true]
                    exact inductionHypothesis _
                  · simp [fits]

/-- A closing bracket fits only the innermost family of its own. -/
theorem openAfter_closing_eq_some_iff
    {opened left : List Bracket}
    {bracket : Bracket}
    {rest : List Char} :
    openAfter opened (bracket.closing :: rest) = some left ↔
      ∃ outer, opened = bracket :: outer ∧ openAfter outer rest = some left := by
  rw [openAfter.eq_def]
  simp only [Bracket.ofOpening?_closing, Bracket.ofClosing?_closing]
  cases opened with
  | nil => simp
  | cons innermost outer =>
      by_cases fits : innermost = bracket
      · simp [fits]
      · simp [fits]

end Balance

/-- The tokens have spellings of their kinds, and each closing bracket fits the
innermost family that is still open, given the families open before. -/
structure FitsBehind (opened : List Bracket) (tokens : List Token) : Prop where
  /-- The texts are spellings. -/
  valid : ∀ token ∈ tokens, token.word.IsValid
  /-- No closing bracket fits nothing. -/
  fits : ∃ left,
    Balance.openAfter opened (Word.brackets (tokens.map Token.word)) = some left

namespace FitsBehind

variable
  {opened : List Bracket}
  {token : Token}
  {tokens first second rest : List Token}

theorem valid_words (fitsBehind : FitsBehind opened tokens) :
    ∀ word ∈ tokens.map Token.word, word.IsValid :=
  List.forall_mem_map.mpr fitsBehind.valid

/-- What fits also fits if nothing follows. -/
theorem of_append (fitsBehind : FitsBehind opened (first ++ second)) :
    FitsBehind opened first := by
  obtain ⟨valid, left, fits⟩ := fitsBehind
  refine ⟨(List.forall_mem_append.mp valid).1, ?_⟩
  rw [List.map_append, Word.brackets_append, Balance.openAfter_append,
    Option.bind_eq_some_iff] at fits
  obtain ⟨between, firstFits, _⟩ := fits
  exact ⟨between, firstFits⟩

/-- What follows balanced tokens fits what was open before them. -/
theorem behind
    (fitsBehind : FitsBehind opened (first ++ second))
    (balanced : Balanced (Word.brackets (first.map Token.word))) :
    FitsBehind opened second := by
  obtain ⟨valid, left, fits⟩ := fitsBehind
  refine ⟨(List.forall_mem_append.mp valid).2, left, ?_⟩
  rw [List.map_append, Word.brackets_append,
    Balance.openAfter_of_balanced balanced] at fits
  exact fits

/-! ## One token -/

theorem cons_iff_of_ne
    (isNoOpening : token.kind ≠ .openBracket)
    (isNoClosing : token.kind ≠ .closeBracket) :
    FitsBehind opened (token :: rest) ↔
      token.word.IsValid ∧ FitsBehind opened rest := by
  constructor
  · rintro ⟨valid, left, fits⟩
    rw [List.forall_mem_cons] at valid
    rw [List.map_cons, Word.brackets_cons,
      valid.1.bracketsOf_eq_nil isNoOpening isNoClosing,
      List.nil_append] at fits
    exact ⟨valid.1, valid.2, left, fits⟩
  · rintro ⟨tokenValid, restValid, left, fits⟩
    refine ⟨List.forall_mem_cons.mpr ⟨tokenValid, restValid⟩, left, ?_⟩
    rw [List.map_cons, Word.brackets_cons,
      tokenValid.bracketsOf_eq_nil isNoOpening isNoClosing, List.nil_append]
    exact fits

theorem tail
    (fitsBehind : FitsBehind opened (token :: rest))
    (isNoOpening : token.kind ≠ .openBracket)
    (isNoClosing : token.kind ≠ .closeBracket) :
    FitsBehind opened rest :=
  ((cons_iff_of_ne isNoOpening isNoClosing).mp fitsBehind).2

theorem cons_iff_of_opening
    {bracket : Bracket}
    (word_eq : token.word = Word.opening bracket) :
    FitsBehind opened (token :: rest) ↔
      FitsBehind (bracket :: opened) rest := by
  have brackets_eq :
      Word.brackets ((token :: rest).map Token.word) =
        bracket.opening :: Word.brackets (rest.map Token.word) := by
    rw [List.map_cons, word_eq, Word.brackets_cons]
    cases bracket <;> rfl
  constructor
  · rintro ⟨valid, left, fits⟩
    rw [brackets_eq, Balance.openAfter_opening] at fits
    exact ⟨(List.forall_mem_cons.mp valid).2, left, fits⟩
  · rintro ⟨valid, left, fits⟩
    have tokenValid : token.word.IsValid :=
      word_eq ▸ Word.isValid_opening bracket
    refine ⟨List.forall_mem_cons.mpr ⟨tokenValid, valid⟩, left, ?_⟩
    rw [brackets_eq, Balance.openAfter_opening]
    exact fits

theorem cons_iff_of_closing
    {bracket : Bracket}
    (word_eq : token.word = Word.closing bracket) :
    FitsBehind opened (token :: rest) ↔
      ∃ outer, opened = bracket :: outer ∧ FitsBehind outer rest := by
  have brackets_eq :
      Word.brackets ((token :: rest).map Token.word) =
        bracket.closing :: Word.brackets (rest.map Token.word) := by
    rw [List.map_cons, word_eq, Word.brackets_cons]
    cases bracket <;> rfl
  constructor
  · rintro ⟨valid, left, fits⟩
    rw [brackets_eq, Balance.openAfter_closing_eq_some_iff] at fits
    obtain ⟨outer, rfl, restFits⟩ := fits
    exact ⟨outer, rfl, (List.forall_mem_cons.mp valid).2, left, restFits⟩
  · rintro ⟨outer, rfl, valid, left, fits⟩
    have tokenValid : token.word.IsValid :=
      word_eq ▸ Word.isValid_closing bracket
    refine ⟨List.forall_mem_cons.mpr ⟨tokenValid, valid⟩, left, ?_⟩
    rw [brackets_eq, Balance.openAfter_closing]
    exact fits

theorem exists_opening
    (fitsBehind : FitsBehind opened (token :: rest))
    (isOpening : token.kind = .openBracket) :
    ∃ bracket,
      token.word = Word.opening bracket ∧
        FitsBehind (bracket :: opened) rest := by
  have valid := fitsBehind.valid token (.head _)
  have word_eq : token.word = ⟨.openBracket, token.text⟩ := by
    simp [Token.word, isOpening]
  rw [word_eq] at valid
  obtain ⟨bracket, text_eq⟩ :
      ∃ bracket : Bracket, token.text = String.singleton bracket.opening :=
    valid
  rw [text_eq] at word_eq
  exact ⟨bracket, word_eq, (cons_iff_of_opening word_eq).mp fitsBehind⟩

theorem exists_closing
    (fitsBehind : FitsBehind opened (token :: rest))
    (isClosing : token.kind = .closeBracket) :
    ∃ bracket outer,
      token.word = Word.closing bracket ∧ opened = bracket :: outer ∧
        FitsBehind outer rest := by
  have valid := fitsBehind.valid token (.head _)
  have word_eq : token.word = ⟨.closeBracket, token.text⟩ := by
    simp [Token.word, isClosing]
  rw [word_eq] at valid
  obtain ⟨bracket, text_eq⟩ :
      ∃ bracket : Bracket, token.text = String.singleton bracket.closing :=
    valid
  rw [text_eq] at word_eq
  obtain ⟨outer, opened_eq, restFits⟩ :=
    (cons_iff_of_closing word_eq).mp fitsBehind
  exact ⟨bracket, outer, word_eq, opened_eq, restFits⟩

/-! ## The bracket that is found by counting -/

/-- Counting from inside of some groups finds the bracket that closes the one
around them, and both sides of it fit. -/
theorem of_atClose?
    {inner outer : List Bracket}
    {bracket : Bracket}
    {cut : Cut Token}
    (fitsBehind : FitsBehind (inner ++ bracket :: outer) tokens)
    (found : Cut.atClose? inner.length tokens = some cut) :
    FitsBehind inner cut.before ∧ cut.pivot.word = Word.closing bracket ∧
      FitsBehind outer cut.after := by
  induction tokens generalizing inner cut with
  | nil => cases found
  | cons token rest inductionHypothesis =>
      by_cases isOpening : token.kind = .openBracket
      · obtain ⟨family, word_eq, restFits⟩ :=
          fitsBehind.exists_opening isOpening
        rw [Cut.atClose?_openBracket isOpening] at found
        obtain ⟨restCut, restFound, rfl⟩ := Option.map_eq_some_iff.mp found
        obtain ⟨beforeFits, closes, afterFits⟩ :=
          @inductionHypothesis (family :: inner) _ restFits restFound
        exact ⟨(cons_iff_of_opening word_eq).mpr beforeFits, closes, afterFits⟩
      · by_cases isClosing : token.kind = .closeBracket
        · obtain ⟨family, behind, word_eq, opened_eq, restFits⟩ :=
            fitsBehind.exists_closing isClosing
          cases inner with
          | nil =>
              rw [List.nil_append, List.cons.injEq] at opened_eq
              obtain ⟨rfl, rfl⟩ := opened_eq
              rw [List.length_nil,
                Cut.atClose?_closeBracket_zero isClosing] at found
              cases found
              exact ⟨⟨by simp, [], rfl⟩, word_eq, restFits⟩
          | cons innermost inner =>
              rw [List.cons_append, List.cons.injEq] at opened_eq
              obtain ⟨rfl, rfl⟩ := opened_eq
              rw [List.length_cons,
                Cut.atClose?_closeBracket_succ isClosing] at found
              obtain ⟨restCut, restFound, rfl⟩ :=
                Option.map_eq_some_iff.mp found
              obtain ⟨beforeFits, closes, afterFits⟩ :=
                inductionHypothesis restFits restFound
              exact
                ⟨(cons_iff_of_closing word_eq).mpr ⟨inner, rfl, beforeFits⟩,
                  closes, afterFits⟩
        · obtain ⟨tokenValid, restFits⟩ :=
            (cons_iff_of_ne isOpening isClosing).mp fitsBehind
          rw [Cut.atClose?_of_ne isOpening isClosing] at found
          obtain ⟨restCut, restFound, rfl⟩ := Option.map_eq_some_iff.mp found
          obtain ⟨beforeFits, closes, afterFits⟩ :=
            inductionHypothesis restFits restFound
          exact
            ⟨(cons_iff_of_ne isOpening isClosing).mpr ⟨tokenValid, beforeFits⟩,
              closes, afterFits⟩

end FitsBehind

end ConditionalAssignment
