import ConditionalAssignment.Proofs.Grammar.Statement
import ConditionalAssignment.Statement.Clause

/-!
# Chunks and clauses of the grammar

A chunk is cut off a range by searching for a first delimiter and a last `else`,
and the block of a conditional is cut into clauses by searching for a first
`then` and a last `else`.  Here each search is tied to the parts that the
grammar names, in both directions: where the parts are given, the search finds
them, and what a search finds are such parts.
-/

namespace ConditionalAssignment

theorem lacks_delimiter_iff {tokens : List Token} :
    (∀ token ∈ tokens, token.isDelimiter = false) ↔
      Lacks .delimiter (tokens.map Token.word) := by
  simp [Lacks, Token.isDelimiter]

theorem lacks_keyword_iff {tokens : List Token} {keyword : Keyword} :
    (∀ token ∈ tokens, token.isKeyword keyword = false) ↔
      Lacks (.keyword keyword) (tokens.map Token.word) := by
  simp [Lacks, Token.isKeyword]

theorem Token.isReserved_eq_false_iff {token : Token} :
    token.isReserved = false ↔ ∀ keyword, token.isKeyword keyword = false := by
  unfold isReserved isKeyword
  split
  · rename_i keyword kind_eq
    simp [kind_eq]
  · rename_i notKeyword
    simpa using notKeyword

/-- Tokens hold no reserved word exactly if their words lack each of them. -/
theorem lacks_reserved_iff {tokens : List Token} :
    (∀ token ∈ tokens, token.isReserved = false) ↔
      ∀ keyword, Lacks (.keyword keyword) (tokens.map Token.word) := by
  simp only [Token.isReserved_eq_false_iff, ← lacks_keyword_iff]
  constructor
  · intro lacks keyword token member
    exact lacks token member keyword
  · intro lacks token member keyword
    exact lacks keyword token member

theorem Token.isKeyword_eq_true_iff {token : Token} {keyword : Keyword} :
    token.isKeyword keyword = true ↔ token.kind = .keyword keyword := by
  simp [isKeyword]

theorem Token.isKeyword_eq_false_of_ne
    {token : Token}
    {keyword other : Keyword}
    (isOther : token.isKeyword other = true)
    (different : other ≠ keyword) :
    token.isKeyword keyword = false := by
  have kind_eq := Token.isKeyword_eq_true_iff.mp isOther
  simp [Token.isKeyword, kind_eq, different]

theorem Token.isDelimiter_eq_true_iff {token : Token} :
    token.isDelimiter = true ↔ token.kind = .delimiter := by
  simp [isDelimiter]

/-! ## Cuts at reserved words -/

namespace Cut

theorem atFirst?_delimiter
    {before after : List Token}
    {delimiter : Token}
    (isDelimiter : delimiter.kind = .delimiter)
    (beforeLacks : Lacks .delimiter (before.map Token.word)) :
    atFirst? Token.isDelimiter (before ++ delimiter :: after) =
      some ⟨before, delimiter, after⟩ :=
  atFirst?_eq_some_iff.mpr
    ⟨rfl, Token.isDelimiter_eq_true_iff.mpr isDelimiter,
      lacks_delimiter_iff.mpr beforeLacks⟩

theorem atFirst?_keyword
    {keyword : Keyword}
    {before after : List Token}
    {pivot : Token}
    (isKeyword : pivot.kind = .keyword keyword)
    (beforeLacks : Lacks (.keyword keyword) (before.map Token.word)) :
    atFirst? (Token.isKeyword · keyword) (before ++ pivot :: after) =
      some ⟨before, pivot, after⟩ :=
  atFirst?_eq_some_iff.mpr
    ⟨rfl, Token.isKeyword_eq_true_iff.mpr isKeyword,
      lacks_keyword_iff.mpr beforeLacks⟩

theorem atLast?_keyword
    {keyword : Keyword}
    {before after : List Token}
    {pivot : Token}
    (isKeyword : pivot.kind = .keyword keyword)
    (afterLacks : Lacks (.keyword keyword) (after.map Token.word)) :
    atLast? (Token.isKeyword · keyword) (before ++ pivot :: after) =
      some ⟨before, pivot, after⟩ :=
  atLast?_eq_some_iff.mpr
    ⟨rfl, Token.isKeyword_eq_true_iff.mpr isKeyword,
      lacks_keyword_iff.mpr afterLacks⟩

theorem atLast?_keyword_eq_none
    {keyword : Keyword}
    {tokens : List Token}
    (lacks : Lacks (.keyword keyword) (tokens.map Token.word)) :
    atLast? (Token.isKeyword · keyword) tokens = none :=
  atLast?_eq_none_iff.mpr (lacks_keyword_iff.mpr lacks)

end Cut

/-- Tokens either lack a reserved word or have a last one. -/
theorem lacks_or_exists_last
    (keyword : Keyword)
    (tokens : List Token) :
    Lacks (.keyword keyword) (tokens.map Token.word) ∨
      ∃ before pivot after,
        tokens = before ++ pivot :: after ∧
          pivot.kind = .keyword keyword ∧
            Lacks (.keyword keyword) (after.map Token.word) := by
  cases found : Cut.atLast? (Token.isKeyword · keyword) tokens with
  | none =>
      have noKeyword := Cut.atLast?_eq_none_iff.mp found
      exact Or.inl (lacks_keyword_iff.mp noKeyword)
  | some cut =>
      obtain ⟨whole, isKeyword, afterLacks⟩ := Cut.atLast?_eq_some_iff.mp found
      exact Or.inr
        ⟨cut.before, cut.pivot, cut.after, whole,
          Token.isKeyword_eq_true_iff.mp isKeyword,
          lacks_keyword_iff.mp afterLacks⟩

/-! ## Blocks -/

namespace Chunk

theorem splitBehindDelimiter_append
    {termination : Termination}
    {inner ending rest : List Token}
    (innerLacks : Lacks .delimiter (inner.map Token.word))
    (ends : Ends termination (ending.map Token.word) (rest.map Token.word)) :
    splitBehindDelimiter (inner ++ (ending ++ rest)) =
      (inner ++ ending, rest) := by
  unfold splitBehindDelimiter
  rcases ends with delimited | ⟨_, ending_eq, rest_eq⟩
  · obtain ⟨delimiter, delimiter_eq, kind_eq⟩ :=
      List.map_eq_singleton_iff.mp delimited
    obtain ⟨token, rfl, rfl⟩ := List.map_eq_singleton_iff.mp delimiter_eq
    rw [List.singleton_append, Cut.atFirst?_delimiter kind_eq innerLacks]
  · rw [List.map_eq_nil_iff] at ending_eq rest_eq
    subst ending_eq rest_eq
    simp only [List.append_nil]
    rw [Cut.atFirst?_eq_none_iff.mpr (lacks_delimiter_iff.mpr innerLacks)]

theorem exists_of_splitBehindDelimiter
    {tokens taken rest : List Token}
    (split_eq : splitBehindDelimiter tokens = (taken, rest)) :
    ∃ inner ending,
      taken = inner ++ ending ∧ tokens = inner ++ (ending ++ rest) ∧
        Lacks .delimiter (inner.map Token.word) ∧
          Ends .implied (ending.map Token.word) (rest.map Token.word) := by
  unfold splitBehindDelimiter at split_eq
  split at split_eq
  · rename_i cut found
    obtain ⟨whole, isDelimiter, beforeLacks⟩ :=
      Cut.atFirst?_eq_some_iff.mp found
    cases split_eq
    refine ⟨cut.before, [cut.pivot], rfl, whole, ?_, Or.inl ?_⟩
    · exact lacks_delimiter_iff.mp beforeLacks
    · simp [Token.isDelimiter_eq_true_iff.mp isDelimiter]
  · rename_i notFound
    cases split_eq
    refine ⟨tokens, [], by simp, by simp, ?_, Or.inr ⟨rfl, rfl, rfl⟩⟩
    exact lacks_delimiter_iff.mp (Cut.atFirst?_eq_none_iff.mp notFound)

theorem splitBlock_of_lacks
    {tokens : List Token}
    (lacks : Lacks (.keyword .elseWord) (tokens.map Token.word)) :
    splitBlock tokens = splitBehindDelimiter tokens := by
  unfold splitBlock
  rw [Cut.atLast?_keyword_eq_none lacks]

theorem splitBlock_append
    {before after : List Token}
    {pivot : Token}
    (isElse : pivot.kind = .keyword .elseWord)
    (afterLacks : Lacks (.keyword .elseWord) (after.map Token.word)) :
    splitBlock (before ++ pivot :: after) =
      (before ++ pivot :: (splitBehindDelimiter after).1,
        (splitBehindDelimiter after).2) := by
  unfold splitBlock
  rw [Cut.atLast?_keyword isElse afterLacks]

/-- What is split off would be split off with nothing behind it. -/
theorem splitBehindDelimiter_taken
    {tokens taken rest : List Token}
    (split_eq : splitBehindDelimiter tokens = (taken, rest)) :
    splitBehindDelimiter taken = (taken, []) := by
  obtain ⟨inner, ending, rfl, rfl, innerLacks, ends⟩ :=
    exists_of_splitBehindDelimiter split_eq
  have endsBefore : Ends .implied (ending.map Token.word) ([].map Token.word) :=
    ends.before_nil
  simpa using splitBehindDelimiter_append innerLacks endsBefore

/-- A block would be a block with nothing behind it. -/
theorem splitBlock_taken
    {tokens block rest : List Token}
    (split_eq : splitBlock tokens = (block, rest)) :
    splitBlock block = (block, []) := by
  rcases lacks_or_exists_last .elseWord tokens with
    lacks | ⟨before, pivot, after, rfl, isElse, afterLacks⟩
  · rw [splitBlock_of_lacks lacks] at split_eq
    have whole := append_splitBehindDelimiter tokens
    rw [split_eq] at whole
    rw [← whole, List.map_append, lacks_append] at lacks
    rw [splitBlock_of_lacks lacks.1, splitBehindDelimiter_taken split_eq]
  · rw [splitBlock_append isElse afterLacks] at split_eq
    cases split_eq
    have whole := append_splitBehindDelimiter after
    rw [← whole, List.map_append, lacks_append] at afterLacks
    have taken_eq : splitBehindDelimiter (splitBehindDelimiter after).1 =
        ((splitBehindDelimiter after).1, []) :=
      splitBehindDelimiter_taken rfl
    rw [splitBlock_append isElse afterLacks.1, taken_eq]

/-! ## Chunks -/

theorem ofRange_assignment
    {termination : Termination}
    {first : Token}
    {body ending rest : List Token}
    (noDelimiter : Lacks .delimiter ((first :: body).map Token.word))
    (noReserved : ∀ keyword,
      Lacks (.keyword keyword) ((first :: body).map Token.word))
    (ends : Ends termination (ending.map Token.word) (rest.map Token.word)) :
    ofRange termination first (body ++ (ending ++ rest)) =
      .ok ⟨false, body, rest⟩ := by
  have notReserved : (first :: body).any Token.isReserved = false := by
    simpa using lacks_reserved_iff.mpr noReserved
  rw [List.map_cons, lacks_cons] at noDelimiter
  obtain ⟨firstNoDelimiter, bodyLacks⟩ := noDelimiter
  have first_eq : first.isDelimiter = false := by
    simpa [Token.isDelimiter] using firstNoDelimiter
  unfold ofRange
  rcases ends with delimited | ⟨rfl, ending_eq, rest_eq⟩
  · obtain ⟨delimiter, delimiter_eq, kind_eq⟩ :=
      List.map_eq_singleton_iff.mp delimited
    obtain ⟨token, rfl, rfl⟩ := List.map_eq_singleton_iff.mp delimiter_eq
    rw [List.singleton_append, Cut.atFirst?_delimiter kind_eq bodyLacks]
    simp [first_eq, ofHead, notReserved]
  · rw [List.map_eq_nil_iff] at ending_eq rest_eq
    subst ending_eq rest_eq
    simp only [List.append_nil]
    rw [Cut.atFirst?_eq_none_iff.mpr (lacks_delimiter_iff.mpr bodyLacks)]
    simp [first_eq, ofHead, notReserved]

theorem ofRange_conditional
    {termination : Termination}
    {first : Token}
    {others : List Token}
    {keyword : Keyword}
    (isKeyword : first.kind = .keyword keyword)
    (delimited : termination = .implied ∨
      ¬ Lacks .delimiter (others.map Token.word)) :
    ofRange termination first others =
      .ok ⟨true, (splitBlock others).1, (splitBlock others).2⟩ := by
  have first_eq : first.isDelimiter = false := by
    simp [Token.isDelimiter, isKeyword]
  have reserved (head : List Token) :
      (first :: head).any Token.isReserved = true := by
    simp [Token.isReserved, isKeyword]
  unfold ofRange
  rw [first_eq]
  cases found : Cut.atFirst? Token.isDelimiter others with
  | some cut => simp [ofHead, reserved]
  | none =>
      rcases delimited with rfl | hasDelimiter
      · simp [ofHead, reserved]
      · have lacks := Cut.atFirst?_eq_none_iff.mp found
        exact absurd (lacks_delimiter_iff.mp lacks) hasDelimiter

theorem eq_of_ofRange
    {termination : Termination}
    {first : Token}
    {others body rest : List Token}
    {isConditional : Bool}
    (found : ofRange termination first others =
      .ok ⟨isConditional, body, rest⟩) :
    if isConditional then
      splitBlock others = (body, rest)
    else
      ∃ ending,
        others = body ++ (ending ++ rest) ∧
          Ends termination (ending.map Token.word) (rest.map Token.word) := by
  unfold ofRange at found
  split at found
  · cases found
  · split at found
    · rename_i cut cutFound
      obtain ⟨whole, isDelimiter, _⟩ := Cut.atFirst?_eq_some_iff.mp cutFound
      have kind_eq := Token.isDelimiter_eq_true_iff.mp isDelimiter
      unfold ofHead at found
      split at found
      · cases found
        rfl
      · cases found
        exact ⟨[cut.pivot], whole, Or.inl (by simp [kind_eq])⟩
    · split at found
      · unfold ofHead at found
        split at found
        · cases found
          rfl
        · cases found
          exact ⟨[], by simp, Or.inr ⟨rfl, rfl, rfl⟩⟩
      · cases found

end Chunk

/-! ## Clauses -/

namespace Clauses

/-- A block without `else` has one clause. -/
theorem ofBlock_single
    {first thenToken : Token}
    {condition branch : List Token}
    (isIf : first.kind = .keyword .ifWord)
    (isThen : thenToken.kind = .keyword .thenWord)
    (conditionLacks : ∀ keyword,
      Lacks (.keyword keyword) (condition.map Token.word))
    (branchLacks : Lacks (.keyword .elseWord) (branch.map Token.word)) :
    ofBlock first (condition ++ thenToken :: branch) =
      .ok ⟨condition, ⟨.thenWord, thenToken.position, branch⟩, none⟩ := by
  unfold ofBlock
  rw [Token.isKeyword_eq_true_iff.mpr isIf,
    Cut.atFirst?_keyword isThen (conditionLacks .thenWord)]
  dsimp only
  rw [Cut.atLast?_keyword_eq_none branchLacks,
    Cut.atLast?_keyword_eq_none (conditionLacks .elseWord)]
  rfl

/-- A block is cut at its last `else`. -/
theorem ofBlock_choice
    {first thenToken elseToken : Token}
    {condition thenBranch elseBranch : List Token}
    (isIf : first.kind = .keyword .ifWord)
    (isThen : thenToken.kind = .keyword .thenWord)
    (isElse : elseToken.kind = .keyword .elseWord)
    (conditionLacks : ∀ keyword,
      Lacks (.keyword keyword) (condition.map Token.word))
    (elseLacks : Lacks (.keyword .elseWord) (elseBranch.map Token.word)) :
    ofBlock first
        (condition ++ thenToken :: (thenBranch ++ elseToken :: elseBranch)) =
      .ok
        ⟨condition, ⟨.thenWord, thenToken.position, thenBranch⟩,
          some ⟨.elseWord, elseToken.position, elseBranch⟩⟩ := by
  unfold ofBlock
  rw [Token.isKeyword_eq_true_iff.mpr isIf,
    Cut.atFirst?_keyword isThen (conditionLacks .thenWord)]
  dsimp only
  rw [Cut.atLast?_keyword isElse elseLacks]
  rfl

/-- The clauses of a block are its parts in order. -/
theorem eq_of_ofBlock
    {first : Token}
    {body : List Token}
    {clauses : Clauses}
    (found : ofBlock first body = .ok clauses) :
    first.kind = .keyword .ifWord ∧
      ∃ thenToken, thenToken.kind = .keyword .thenWord ∧
        match clauses.alternative with
        | none =>
            body = clauses.condition ++ thenToken :: clauses.consequent.body ∧
              Lacks (.keyword .elseWord) (body.map Token.word)
        | some alternative =>
            ∃ elseToken, elseToken.kind = .keyword .elseWord ∧
              body = clauses.condition ++ thenToken ::
                (clauses.consequent.body ++ elseToken :: alternative.body) ∧
                Lacks (.keyword .elseWord)
                  (alternative.body.map Token.word) := by
  unfold ofBlock at found
  split at found
  · rename_i isIf
    refine ⟨Token.isKeyword_eq_true_iff.mp isIf, ?_⟩
    split at found
    · cases found
    · rename_i thenCut thenFound
      obtain ⟨whole, isThen, _⟩ := Cut.atFirst?_eq_some_iff.mp thenFound
      have then_kind := Token.isKeyword_eq_true_iff.mp isThen
      refine ⟨thenCut.pivot, then_kind, ?_⟩
      split at found
      · rename_i elseCut elseFound
        obtain ⟨after_eq, isElse, afterLacks⟩ :=
          Cut.atLast?_eq_some_iff.mp elseFound
        cases found
        refine ⟨elseCut.pivot, Token.isKeyword_eq_true_iff.mp isElse, ?_,
          lacks_keyword_iff.mp afterLacks⟩
        rw [whole, Cut.whole, after_eq, Cut.whole]
      · rename_i afterFound
        split at found
        · cases found
        · rename_i beforeFound
          cases found
          refine ⟨whole, ?_⟩
          have afterLacks := Cut.atLast?_eq_none_iff.mp afterFound
          have beforeLacks := Cut.atLast?_eq_none_iff.mp beforeFound
          rw [whole, Cut.whole, List.map_append, List.map_cons, lacks_append,
            lacks_cons]
          exact ⟨lacks_keyword_iff.mp beforeLacks, by simp [then_kind],
            lacks_keyword_iff.mp afterLacks⟩
  · cases found

end Clauses

/-! ## Branches -/

theorem Clause.check_eq_ok_iff {clause : Clause} :
    clause.check = .ok () ↔
      ∃ first others,
        clause.body = first :: others ∧ first.kind ≠ .delimiter := by
  unfold Clause.check
  cases body_eq : clause.body with
  | nil => simp
  | cons first others =>
      cases isDelimiter : first.isDelimiter with
      | false =>
          have noDelimiter : first.kind ≠ .delimiter := by
            simpa [Token.isDelimiter] using isDelimiter
          simp [isDelimiter, noDelimiter]
      | true =>
          have kind_eq := Token.isDelimiter_eq_true_iff.mp isDelimiter
          simp [isDelimiter, kind_eq]

/-- The end of a block is the end of its last branch. -/
theorem exists_branch
    {front branch inner ending : List Token}
    {first : Token}
    {others : List Token}
    (whole_eq : front ++ branch = inner ++ ending)
    (branch_eq : branch = first :: others)
    (noDelimiter : first.kind ≠ .delimiter)
    (ends : Ends .implied (ending.map Token.word) []) :
    ∃ body, branch = body ++ ending ∧ inner = front ++ body ∧ body ≠ [] := by
  rcases ends with delimited | ⟨_, ending_eq, _⟩
  · obtain ⟨delimiter, delimiter_eq, kind_eq⟩ :=
      List.map_eq_singleton_iff.mp delimited
    obtain ⟨token, rfl, rfl⟩ := List.map_eq_singleton_iff.mp delimiter_eq
    rcases List.eq_nil_or_concat branch with rfl | ⟨body, last, rfl⟩
    · cases branch_eq
    · rw [List.concat_eq_append, ← List.append_assoc] at whole_eq
      obtain ⟨inner_eq, last_eq⟩ := List.append_inj' whole_eq rfl
      cases last_eq
      refine ⟨body, List.concat_eq_append, inner_eq.symm, ?_⟩
      rintro rfl
      cases branch_eq
      exact noDelimiter kind_eq
  · rw [List.map_eq_nil_iff] at ending_eq
    subst ending_eq
    refine ⟨branch, by simp, by simpa using whole_eq.symm, ?_⟩
    rw [branch_eq]
    exact List.cons_ne_nil first others

end ConditionalAssignment
