import ConditionalAssignment.Proofs.Grammar.Chunk

/-!
# The end of a range

What ends the last statement of a range can be exchanged: a delimiter can be
added or left out wherever the boundary of the range stands for one.  A then
branch in front of `else` is such a range, however deep it lies, so a single
delimiter directly before `else` makes no difference to what is read.
-/

namespace ConditionalAssignment

/-- The last word, if there is one, is no delimiter. -/
def Undelimited (words : List Word) : Prop :=
  ∀ last ∈ words.getLast?, last.kind ≠ .delimiter

namespace Undelimited

variable {first second : List Word}

theorem of_lacks (lacks : Lacks .delimiter first) : Undelimited first := by
  intro last isLast
  exact lacks last (List.mem_of_getLast? isLast)

theorem append
    (undelimited : Undelimited second)
    (nonempty : second ≠ []) :
    Undelimited (first ++ second) := by
  intro last isLast
  rw [List.getLast?_append, List.getLast?_eq_some_getLast nonempty] at isLast
  apply undelimited
  rw [List.getLast?_eq_some_getLast nonempty]
  exact isLast

theorem of_append (undelimited : Undelimited (first ++ second)) :
    Undelimited second := by
  intro last isLast
  apply undelimited
  rw [List.getLast?_append, isLast]
  rfl

/-- Words tell whether a delimiter was put behind undelimited ones. -/
theorem append_inj
    {firstEnding secondEnding : List Word}
    (firstUndelimited : Undelimited first)
    (secondUndelimited : Undelimited second)
    (firstEnds : Ends .implied firstEnding [])
    (secondEnds : Ends .implied secondEnding [])
    (whole_eq : first ++ firstEnding = second ++ secondEnding) :
    first = second ∧ firstEnding = secondEnding := by
  have not_delimited
      {words front : List Word}
      {delimiter : Word}
      (undelimited : Undelimited words)
      (isDelimiter : delimiter.kind = .delimiter) :
      words ≠ front ++ [delimiter] := by
    rintro rfl
    exact undelimited delimiter (by simp) isDelimiter
  rcases firstEnds with firstDelimited | ⟨_, rfl, _⟩ <;>
    rcases secondEnds with secondDelimited | ⟨_, rfl, _⟩
  · obtain ⟨firstLast, rfl, _⟩ := List.map_eq_singleton_iff.mp firstDelimited
    obtain ⟨secondLast, rfl, _⟩ :=
      List.map_eq_singleton_iff.mp secondDelimited
    exact List.append_inj' whole_eq rfl
  · obtain ⟨last, rfl, isDelimiter⟩ :=
      List.map_eq_singleton_iff.mp firstDelimited
    rw [List.append_nil] at whole_eq
    exact absurd whole_eq.symm (not_delimited secondUndelimited isDelimiter)
  · obtain ⟨last, rfl, isDelimiter⟩ :=
      List.map_eq_singleton_iff.mp secondDelimited
    rw [List.append_nil] at whole_eq
    exact absurd whole_eq (not_delimited firstUndelimited isDelimiter)
  · simpa using whole_eq

end Undelimited

/-! ## Places in a list of words -/

/-- A word of a kind that the front lacks stands behind it. -/
theorem Lacks.exists_of_append_eq
    {kind : TokenKind}
    {front rest before behind : List Word}
    {pivot : Word}
    (frontLacks : Lacks kind front)
    (isKind : pivot.kind = kind)
    (whole_eq : front ++ rest = before ++ pivot :: behind) :
    ∃ between,
      before = front ++ between ∧ rest = between ++ pivot :: behind := by
  obtain ⟨between, rfl, rest_eq⟩ | ⟨between, rfl, pivot_eq⟩ :=
    List.append_eq_append_iff.mp whole_eq
  · exact ⟨between, rfl, rest_eq⟩
  · obtain ⟨rfl, rest_eq⟩ | ⟨others, rfl, _⟩ :=
      List.cons_eq_append_iff.mp pivot_eq
    · exact ⟨[], by simp, rest_eq⟩
    · simp [isKind] at frontLacks

/-- A word of a kind is the last one of that kind or stands before it. -/
theorem Lacks.eq_or_exists_of_append_eq
    {kind : TokenKind}
    {front rest before behind : List Word}
    {last pivot : Word}
    (restLacks : Lacks kind rest)
    (isKind : pivot.kind = kind)
    (whole_eq : front ++ last :: rest = before ++ pivot :: behind) :
    (before = front ∧ pivot = last ∧ behind = rest) ∨
      ∃ between,
        front = before ++ pivot :: between ∧
          behind = between ++ last :: rest := by
  obtain ⟨between, rfl, last_eq⟩ | ⟨between, rfl, pivot_eq⟩ :=
    List.append_eq_append_iff.mp whole_eq
  · obtain ⟨rfl, tail_eq⟩ | ⟨others, rfl, rfl⟩ :=
      List.cons_eq_append_iff.mp last_eq
    · cases tail_eq
      exact Or.inl ⟨by simp, rfl, rfl⟩
    · simp [isKind] at restLacks
  · obtain ⟨rfl, tail_eq⟩ | ⟨others, rfl, rfl⟩ :=
      List.cons_eq_append_iff.mp pivot_eq
    · cases tail_eq
      exact Or.inl ⟨by simp, rfl, rfl⟩
    · exact Or.inr ⟨others, rfl, rfl⟩

/-- What ends some words belongs to any part behind their front. -/
theorem Ends.exists_of_append_eq
    {ending before front back : List Word}
    (ends : Ends .implied ending [])
    (nonempty : back ≠ [])
    (whole_eq : before ++ ending = front ++ back) :
    ∃ between, before = front ++ between ∧ back = between ++ ending := by
  rcases ends with delimited | ⟨_, rfl, _⟩
  · obtain ⟨last, rfl, _⟩ := List.map_eq_singleton_iff.mp delimited
    obtain rfl | ⟨between, backLast, rfl⟩ := List.eq_nil_or_concat back
    · exact absurd rfl nonempty
    · rw [List.concat_eq_append, ← List.append_assoc] at whole_eq
      obtain ⟨rfl, last_eq⟩ := List.append_inj' whole_eq rfl
      exact ⟨between, rfl, by rw [last_eq, List.concat_eq_append]⟩
  · rw [List.append_nil] at whole_eq
    exact ⟨back, whole_eq, by simp⟩

namespace Statement

/-! ## Ranges with another end -/

/-- The words are those of a range up to what ends the last statement, and read
the same with any other end. -/
def ReadsBefore
    (termination : Termination)
    (words : List Word)
    (statements : List Statement) : Prop :=
  ∃ front ending,
    words = front ++ ending ∧ front ≠ [] ∧ Undelimited front ∧
      Ends termination ending [] ∧
        ∀ mode other,
          Ends mode other [] → ReadsRange mode (front ++ other) statements

/-- A statement in front of a range. -/
theorem ReadsBefore.cons
    {termination : Termination}
    {head between rest : List Word}
    {first : Statement}
    {others : List Statement}
    (nonempty : head ≠ [])
    (undelimited : Undelimited head)
    (ends : Ends termination between rest)
    (restReads : ReadsRange termination rest others)
    (restBefore : others ≠ [] → ReadsBefore termination rest others)
    (reads : ∀ mode ending behind,
      Ends mode ending behind →
        (Lacks (.keyword .elseWord) rest →
          Lacks (.keyword .elseWord) behind) →
          ReadsRange mode behind others →
            ReadsRange mode (head ++ (ending ++ behind)) (first :: others)) :
    ReadsBefore termination (head ++ (between ++ rest)) (first :: others) := by
  cases others with
  | nil =>
      obtain rfl := restReads.words_eq_nil
      refine ⟨head, between, by simp, nonempty, undelimited, ends, ?_⟩
      intro mode other otherEnds
      have singleReads := reads mode other [] otherEnds id .nil
      rwa [List.append_nil] at singleReads
  | cons second others =>
      obtain ⟨front, ending, rfl, frontNonempty, frontUndelimited, restEnds,
        frontReads⟩ := restBefore (by simp)
      -- Something follows the first statement, so a delimiter ends it.
      have delimited : between.map Word.kind = [.delimiter] :=
        ends.resolve_right (by simp [frontNonempty])
      refine ⟨head ++ (between ++ front), ending, by simp, by simp [nonempty],
        ?_, restEnds, ?_⟩
      · rw [← List.append_assoc]
        exact frontUndelimited.append frontNonempty
      · intro mode other otherEnds
        simp only [List.append_assoc]
        apply reads mode between _ (Or.inl delimited) _
          (frontReads mode other otherEnds)
        intro restLacks
        exact lacks_append.mpr
          ⟨(lacks_append.mp restLacks).1, otherEnds.lacks (by simp)⟩

/-- A range that holds a statement reads the same with any other end. -/
theorem ReadsRange.readsBefore
    {termination : Termination}
    {words : List Word}
    {statements : List Statement}
    (reads : ReadsRange termination words statements)
    (nonempty : statements ≠ []) :
    ReadsBefore termination words statements := by
  induction reads with
  | nil => exact absurd rfl nonempty
  | simple simpleReads ends restLacks restReads restHypothesis =>
      obtain ⟨first, others, words_eq, _⟩ := simpleReads.exists_cons
      apply ReadsBefore.cons (by simp [words_eq])
        (.of_lacks simpleReads.lacks_delimiter) ends restReads restHypothesis
      intro mode ending behind behindEnds stillLacks behindReads
      exact .simple simpleReads behindEnds
        (fun isConditional => stillLacks (restLacks isConditional)) behindReads
  | @choice termination ifText thenText elseText condition thenWords elseWords
      ending rest first alternative others statements thenReads elseReads ends
      restLacks restReads _ restHypothesis =>
      obtain ⟨elseFirst, elseOthers, else_eq, _⟩ := elseReads.exists_cons
      have words_eq :
          ⟨.keyword .ifWord, ifText⟩ ::
              (condition.words ++ ⟨.keyword .thenWord, thenText⟩ ::
                (thenWords ++ ⟨.keyword .elseWord, elseText⟩ ::
                  (elseWords ++ (ending ++ rest)))) =
            ((⟨.keyword .ifWord, ifText⟩ ::
                (condition.words ++ ⟨.keyword .thenWord, thenText⟩ ::
                  (thenWords ++ [⟨.keyword .elseWord, elseText⟩]))) ++
                elseWords) ++ (ending ++ rest) := by
        simp
      rw [words_eq]
      have elseUndelimited := Undelimited.of_lacks elseReads.lacks_delimiter
      apply ReadsBefore.cons (by simp)
        (elseUndelimited.append (by simp [else_eq])) ends restReads
        restHypothesis
      intro mode other behind behindEnds stillLacks behindReads
      have choiceReads :
          ReadsRange mode
            (⟨.keyword .ifWord, ifText⟩ ::
              (condition.words ++ ⟨.keyword .thenWord, thenText⟩ ::
                (thenWords ++ ⟨.keyword .elseWord, elseText⟩ ::
                  (elseWords ++ (other ++ behind))))) _ :=
        .choice thenReads elseReads behindEnds (stillLacks restLacks)
          behindReads
      simpa using choiceReads

/-! ## Ranges that need their last delimiter -/

/-- A range needs its last delimiter exactly if it may do without one and has
it, so nothing else depends on the manner of termination. -/
theorem ReadsRange.required_iff
    {words : List Word}
    {statements : List Statement} :
    ReadsRange .required words statements ↔
      ReadsRange .implied words statements ∧
        ∀ last ∈ words.getLast?, last.kind = .delimiter := by
  cases statements with
  | nil =>
      constructor
      · intro reads
        obtain rfl := reads.words_eq_nil
        exact ⟨.nil, by simp⟩
      · rintro ⟨reads, _⟩
        obtain rfl := reads.words_eq_nil
        exact .nil
  | cons first others =>
      constructor
      · intro reads
        obtain ⟨front, ending, rfl, _, _, ends, frontReads⟩ :=
          reads.readsBefore (by simp)
        have delimited : ending.map Word.kind = [.delimiter] :=
          ends.resolve_right (by simp)
        obtain ⟨delimiter, rfl, isDelimiter⟩ :=
          List.map_eq_singleton_iff.mp delimited
        exact ⟨frontReads .implied _ (Or.inl delimited),
          by simpa using isDelimiter⟩
      · rintro ⟨reads, lastDelimits⟩
        obtain ⟨front, ending, rfl, nonempty, undelimited, ends, frontReads⟩ :=
          reads.readsBefore (by simp)
        rcases ends with delimited | ⟨_, rfl, _⟩
        · exact frontReads .required _ (Or.inl delimited)
        · rw [List.append_nil] at lastDelimits
          have isLast := List.getLast?_eq_some_getLast nonempty
          exact absurd (lastDelimits _ isLast) (undelimited _ isLast)

/-! ## Delimiters before `else` -/

theorem ReadsRange.kind_ne_else
    {termination : Termination}
    {first : Word}
    {others : List Word}
    {statements : List Statement}
    (reads : ReadsRange termination (first :: others) statements) :
    first.kind ≠ .keyword .elseWord := by
  generalize words_eq : first :: others = words at reads
  cases reads with
  | nil => cases words_eq
  | simple simpleReads _ _ _ =>
      obtain ⟨head, tail, rfl, _, noElse⟩ := simpleReads.exists_cons
      cases words_eq
      exact noElse
  | choice _ _ _ _ _ =>
      cases words_eq
      simp

/-- An `else` and what ends the statement before it lie in one range. -/
theorem ReadsRange.exists_of_append_eq
    {termination : Termination}
    {front rest before ending behind : List Word}
    {elseWord : Word}
    {statements : List Statement}
    (reads : ReadsRange termination rest statements)
    (isElse : elseWord.kind = .keyword .elseWord)
    (frontLacks : Lacks (.keyword .elseWord) front)
    (ends : Ends .implied ending [])
    (whole_eq : front ++ rest = before ++ (ending ++ elseWord :: behind)) :
    ∃ between,
      before = front ++ between ∧
        rest = between ++ (ending ++ elseWord :: behind) := by
  rw [← List.append_assoc] at whole_eq
  obtain ⟨back, before_eq, rfl⟩ :=
    frontLacks.exists_of_append_eq isElse whole_eq
  have nonempty : back ≠ [] := by
    rintro rfl
    exact reads.kind_ne_else isElse
  obtain ⟨between, rfl, rfl⟩ := ends.exists_of_append_eq nonempty before_eq
  exact ⟨between, rfl, by rw [List.append_assoc]⟩

/-- What ends the statement before an `else` can be exchanged, however deep the
`else` lies. -/
theorem ReadsRange.exchange_ending
    {termination : Termination}
    {words ending other : List Word}
    {elseWord : Word}
    {statements : List Statement}
    (reads : ReadsRange termination words statements)
    (isElse : elseWord.kind = .keyword .elseWord)
    (ends : Ends .implied ending [])
    (otherEnds : Ends .implied other [])
    {before behind : List Word}
    (undelimited : Undelimited before)
    (words_eq : words = before ++ (ending ++ elseWord :: behind)) :
    ReadsRange termination (before ++ (other ++ elseWord :: behind))
      statements := by
  induction reads generalizing before behind with
  | nil => simp at words_eq
  | @simple _ first between rest _ _ simpleReads restEnds restLacks restReads
      restHypothesis =>
      have frontLacks : Lacks (.keyword .elseWord) (first ++ between) :=
        lacks_append.mpr ⟨simpleReads.lacks_else, restEnds.lacks (by simp)⟩
      rw [← List.append_assoc] at words_eq
      obtain ⟨inner, rfl, rfl⟩ :=
        restReads.exists_of_append_eq isElse frontLacks ends words_eq
      have exchanged := restHypothesis undelimited.of_append rfl
      -- The rest holds an `else`, so the first statement is no conditional and
      -- a delimiter ends it.
      have delimited : between.map Word.kind = [.delimiter] :=
        restEnds.resolve_right (by simp)
      rw [List.append_assoc, List.append_assoc]
      refine .simple simpleReads (Or.inl delimited) ?_ exchanged
      intro isConditional
      have impossible := restLacks isConditional
      simp [isElse] at impossible
  | @choice termination ifText thenText elseText condition thenWords elseWords
      between rest first alternative others statements thenReads elseReads
      restEnds restLacks restReads thenHypothesis _ =>
      have headLacks :
          Lacks (.keyword .elseWord)
            (⟨.keyword .ifWord, ifText⟩ ::
              (condition.words ++ [⟨.keyword .thenWord, thenText⟩])) := by
        simp [condition.lacks_words (.keyword _)]
      have tailLacks :
          Lacks (.keyword .elseWord) (elseWords ++ (between ++ rest)) := by
        simp [elseReads.lacks_else, restEnds.lacks, restLacks]
      have whole_eq :
          ((⟨.keyword .ifWord, ifText⟩ ::
              (condition.words ++ [⟨.keyword .thenWord, thenText⟩])) ++
                thenWords) ++
              ⟨.keyword .elseWord, elseText⟩ ::
                (elseWords ++ (between ++ rest)) =
            (before ++ ending) ++ elseWord :: behind := by
        simpa using words_eq
      -- It is enough to exchange the end in the words of the then branch.
      have choice
          {exchanged : List Word}
          (exchangedReads : ReadsRange .implied exchanged (first :: others)) :
          ReadsRange termination
            (⟨.keyword .ifWord, ifText⟩ ::
              (condition.words ++ ⟨.keyword .thenWord, thenText⟩ ::
                (exchanged ++ ⟨.keyword .elseWord, elseText⟩ ::
                  (elseWords ++ (between ++ rest)))))
            (conditional condition (first :: others) (some [alternative]) ::
              statements) :=
        .choice exchangedReads elseReads restEnds restLacks restReads
      obtain ⟨head_eq, rfl, rfl⟩ | ⟨inner, head_eq, rfl⟩ :=
        tailLacks.eq_or_exists_of_append_eq isElse whole_eq
      · obtain ⟨thenFirst, thenOthers, then_eq, _⟩ := thenReads.exists_cons
        obtain ⟨branch, rfl, rfl⟩ :=
          ends.exists_of_append_eq (by simp [then_eq]) head_eq
        obtain ⟨front, frontEnding, front_eq, _, frontUndelimited, frontEnds,
          frontReads⟩ := thenReads.readsBefore (by simp)
        obtain ⟨rfl, _⟩ :=
          undelimited.of_append.append_inj frontUndelimited ends frontEnds
            front_eq
        simpa using choice (frontReads .implied other otherEnds)
      · obtain ⟨branch, rfl, rfl⟩ :=
          thenReads.exists_of_append_eq isElse headLacks ends
            (by simpa using head_eq)
        simpa using choice (thenHypothesis undelimited.of_append rfl)

end Statement

end ConditionalAssignment
