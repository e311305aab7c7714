import ConditionalAssignment.Cut
import ConditionalAssignment.ParseError

/-!
# Clauses of a conditional

The block of a conditional falls into a condition and one or two clauses.  A
clause is a reserved word and the tokens that it governs.  The first `then` ends
the condition, and the last `else` starts the second clause, so conditionals
inside the first clause keep their own words.
-/

namespace ConditionalAssignment

/-- A reserved word and the tokens of the branch after it. -/
structure Clause where
  /-- The reserved word. -/
  keyword : Keyword
  /-- The place of the word. -/
  position : Position
  /-- The tokens after the word. -/
  body : List Token

/-- Check that the branch of a clause starts with a statement. -/
def Clause.check (clause : Clause) : Except ParseError Unit :=
  match clause.body.head?.map Token.isDelimiter with
  | some false => .ok ()
  | _ => .error ⟨.emptyBranch clause.keyword, some clause.position⟩

/-- The parts of the block of a conditional. -/
structure Clauses where
  /-- The tokens between `if` and `then`. -/
  condition : List Token
  /-- The clause for a condition that holds. -/
  consequent : Clause
  /-- The clause for a condition that fails. -/
  alternative : Option Clause

namespace Clauses

/-- The parts of a block that starts with a given token. -/
def ofBlock
    (first : Token)
    (body : List Token) : Except ParseError Clauses :=
  if first.isKeyword .ifWord then
    match Cut.atFirst? (Token.isKeyword · .thenWord) body with
    | none => .error (.blame first .missingThen)
    | some thenCut =>
        match Cut.atLast? (Token.isKeyword · .elseWord) thenCut.after with
        | some elseCut =>
            .ok
              ⟨thenCut.before,
                ⟨.thenWord, thenCut.pivot.position, elseCut.before⟩,
                some ⟨.elseWord, elseCut.pivot.position, elseCut.after⟩⟩
        | none =>
            match Cut.atLast? (Token.isKeyword · .elseWord) thenCut.before with
            | some elseCut => .error (.blame elseCut.pivot .misplacedElse)
            | none =>
                .ok
                  ⟨thenCut.before,
                    ⟨.thenWord, thenCut.pivot.position, thenCut.after⟩, none⟩
  else
    .error (.blame first (.expectedKeyword .ifWord first.text))

/-- The bodies of the clauses are shorter than the block. -/
theorem length_body_lt
    {first : Token}
    {body : List Token}
    {clauses : Clauses}
    (found : ofBlock first body = .ok clauses) :
    clauses.consequent.body.length < body.length ∧
      ∀ clause ∈ clauses.alternative, clause.body.length < body.length := by
  unfold ofBlock at found
  split at found
  · split at found
    · cases found
    · rename_i thenCut thenFound
      have ⟨body_eq, _⟩ := Cut.atFirst?_eq_some_iff.mp thenFound
      have afterThen := thenCut.length_after_lt
      rw [← body_eq] at afterThen
      split at found
      · rename_i elseCut elseFound
        have ⟨after_eq, _⟩ := Cut.atLast?_eq_some_iff.mp elseFound
        have beforeElse := elseCut.length_before_lt
        have afterElse := elseCut.length_after_lt
        rw [← after_eq] at beforeElse afterElse
        cases found
        constructor
        · exact Nat.lt_trans beforeElse afterThen
        · simp only [Option.mem_def, Option.some.injEq, forall_eq']
          exact Nat.lt_trans afterElse afterThen
      · split at found
        · cases found
        · cases found
          exact ⟨afterThen, by simp⟩
  · cases found

end Clauses

end ConditionalAssignment
