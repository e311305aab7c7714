import ConditionalAssignment.Proofs.Source.Reading
import Mathlib

/-!
# Tokens behind other tokens

A conditional reaches as far as the last `else` of its range, so what is read
from some tokens may change when others follow them.  It does not change if the
first tokens hold no conditional or the others hold no `else`: then the whole is
read as the first statements and whatever the others are read as, an error
included.  In all other cases the statements of the two parts are never read
from the whole, since no statement behind a conditional has an else branch.
-/

namespace ConditionalAssignment.Program

variable {first second : List Token} {program : Program}

/-- Tokens without reserved words are those that assignments are read from. -/
theorem forall_isReserved_eq_false_iff (read : ofTokens first = .ok program) :
    (∀ token ∈ first, token.isReserved = false) ↔
      ∀ statement ∈ program.statements, statement.isConditional = false := by
  rw [lacks_reserved_iff]
  exact (ofTokens_eq_ok_iff.mp read).isConditional_eq_false_iff.symm

theorem exists_isReserved_iff (read : ofTokens first = .ok program) :
    (∃ token ∈ first, token.isReserved = true) ↔
      ∃ statement ∈ program.statements, statement.isConditional = true := by
  simpa using not_congr (forall_isReserved_eq_false_iff read)

/-- Tokens without `else` are those that statements without else branches are
read from. -/
theorem forall_isElse_eq_false_iff (read : ofTokens first = .ok program) :
    (∀ token ∈ first, token.isKeyword .elseWord = false) ↔
      ∀ statement ∈ program.statements, statement.LacksElse := by
  rw [lacks_keyword_iff]
  exact (ofTokens_eq_ok_iff.mp read).lacksElse_iff.symm

theorem exists_isElse_iff (read : ofTokens first = .ok program) :
    (∃ token ∈ first, token.isKeyword .elseWord = true) ↔
      ∃ statement ∈ program.statements, ¬ statement.LacksElse := by
  simpa using not_congr (forall_isElse_eq_false_iff read)

/-- Tokens are read one part after the other if no conditional of the first part
can reach into the second. -/
theorem ofTokens_append_of_separate
    (read : ofTokens first = .ok program)
    (separate :
      (∀ token ∈ first, token.isReserved = false) ∨
        ∀ token ∈ second, token.isKeyword .elseWord = false) :
    ofTokens (first ++ second) =
      (ofTokens second).map fun behind =>
        ⟨program.statements ++ behind.statements⟩ := by
  rw [forall_isReserved_eq_false_iff read, lacks_keyword_iff] at separate
  have reads := ofTokens_eq_ok_iff.mp read
  rw [ofTokens_eq, ofTokens_eq,
    Statement.outcome_readRange_append reads rfl (Or.inl rfl) separate,
    map_map, map_map]

/-- The statements of two parts are not read from the whole if a conditional of
the first part can take an `else` of the second into its block. -/
theorem ofTokens_append_ne
    {behind : Program}
    (read : ofTokens first = .ok program)
    (behindRead : ofTokens second = .ok behind)
    (hasReserved : ∃ token ∈ first, token.isReserved = true)
    (hasElse : ∃ token ∈ second, token.isKeyword .elseWord = true) :
    ofTokens (first ++ second) ≠
      .ok ⟨program.statements ++ behind.statements⟩ := by
  intro wholeRead
  -- If both lists of statements were read as one, they could be told apart, and
  -- then a conditional allows no else branch behind it.
  have isSequence := (ofTokens_eq_ok_iff.mp wholeRead).isSequence
  obtain ⟨statement, member, isConditional⟩ :=
    (exists_isReserved_iff read).mp hasReserved
  obtain ⟨later, laterMember, keepsElse⟩ :=
    (exists_isElse_iff behindRead).mp hasElse
  exact keepsElse
    (isSequence.lacksElse_of_append member isConditional later laterMember)

/-- Two parts are read one after the other if the first holds no reserved word
or the second holds no `else`, and never otherwise. -/
theorem ofTokens_append
    (read : ofTokens first = .ok program) :
    ((∀ token ∈ first, token.isReserved = false) ∨
          (∀ token ∈ second, token.isKeyword .elseWord = false) →
        (∀ behind,
          ofTokens second = .ok behind →
            ofTokens (first ++ second) =
              .ok ⟨program.statements ++ behind.statements⟩) ∧
          ∀ error,
            ofTokens second = .error error →
              ofTokens (first ++ second) = .error error) ∧
      ((∃ token ∈ first, token.isReserved = true) →
        ∀ behind,
          ofTokens second = .ok behind →
            (∃ token ∈ second, token.isKeyword .elseWord = true) →
              ofTokens (first ++ second) ≠
                .ok ⟨program.statements ++ behind.statements⟩) := by
  constructor
  · intro separate
    rw [ofTokens_append_of_separate read separate]
    constructor
    · intro behind behindRead
      rw [behindRead]
      rfl
    · intro error failed
      rw [failed]
      rfl
  · intro hasReserved behind behindRead hasElse
    exact ofTokens_append_ne read behindRead hasReserved hasElse

/-- A conditional may be followed by an assignment, but not by a choice. -/
theorem ofTokens_append_conditional :
    ∃ first plain choice program assigned chosen,
      Token.ofSource "if a<b then x:=1;" = .ok first ∧
        Token.ofSource "y:=2;" = .ok plain ∧
          Token.ofSource "if c<d then y:=2 else y:=3;" = .ok choice ∧
            ofTokens first = .ok program ∧
              ofTokens plain = .ok assigned ∧
                ofTokens choice = .ok chosen ∧
                  ofTokens (first ++ plain) =
                      .ok ⟨program.statements ++ assigned.statements⟩ ∧
                    ofTokens (first ++ choice) ≠
                      .ok ⟨program.statements ++ chosen.statements⟩ := by
  have firstSource :
      Program.ofSource "if a<b then x:=1;" =
        .ok
          ⟨[.conditional ⟨.identifier "a", .less, .identifier "b"⟩
              [.assignment "x" [.operand (.constant "1")]] none]⟩ := by
    cbv
  have plainSource :
      Program.ofSource "y:=2;" =
        .ok ⟨[.assignment "y" [.operand (.constant "2")]]⟩ := by
    cbv
  have choiceSource :
      Program.ofSource "if c<d then y:=2 else y:=3;" =
        .ok
          ⟨[.conditional ⟨.identifier "c", .less, .identifier "d"⟩
              [.assignment "y" [.operand (.constant "2")]]
              (some [.assignment "y" [.operand (.constant "3")]])]⟩ := by
    cbv
  obtain ⟨first, firstLexed, firstRead⟩ := ofSource_eq_ok_iff.mp firstSource
  obtain ⟨plain, plainLexed, plainRead⟩ := ofSource_eq_ok_iff.mp plainSource
  obtain ⟨choice, choiceLexed, choiceRead⟩ := ofSource_eq_ok_iff.mp choiceSource
  refine ⟨first, plain, choice, _, _, _, firstLexed, plainLexed, choiceLexed,
    firstRead, plainRead, choiceRead, ?_, ?_⟩
  · have noElse :=
      (forall_isElse_eq_false_iff plainRead).mpr
        (List.forall_mem_singleton.mpr .assignment)
    exact ((ofTokens_append firstRead).1 (Or.inr noElse)).1 _ plainRead
  · have hasReserved :=
      (exists_isReserved_iff firstRead).mpr ⟨_, .head _, rfl⟩
    have hasElse :=
      (exists_isElse_iff choiceRead).mpr ⟨_, .head _, by rintro ⟨⟩⟩
    exact (ofTokens_append firstRead).2 hasReserved _ choiceRead hasElse

end ConditionalAssignment.Program
