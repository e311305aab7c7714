import ConditionalAssignment.Program.Construction
import ConditionalAssignment.Proofs.Grammar.Composition
import ConditionalAssignment.Proofs.Source.Reading
import Mathlib

/-!
# Conditionals with long last branches

A conditional can be built with any number of statements in its last branch,
which is its else branch or, without one, its then branch.  In a text that
branch ends at the first delimiter.  The statements behind it are therefore read
as siblings of the conditional, in the same order and in front of what follows.

No text has to be followed to see that.  The program that is read has the same
words as the one that was built, since a delimiter stands behind a statement of
a branch and behind a sibling alike, and it is canonical.
-/

namespace ConditionalAssignment

/-! ## Statements that leave a branch -/

namespace Statement

/-- The longer statement has the parts of the shorter one and of the statements
that leave it, in this order. -/
structure Releases
    (longer shorter : Statement)
    (released : List Statement) : Prop where
  /-- With a delimiter at its end, it has their words. -/
  words_eq :
    longer.words ++ [Word.delimiter] =
      shorter.words ++ [Word.delimiter] ++ (Program.mk released).words
  /-- It has their operands. -/
  operands_eq :
    longer.operands = shorter.operands ++ released.flatMap operands
  /-- It assigns their expressions. -/
  values_eq : longer.values = shorter.values ++ released.flatMap values

/-- With a delimiter at its end, a branch has the words of statements that stand
on their own. -/
theorem joinedWords_cons_delimiter
    (first : Statement)
    (others : List Statement) :
    joinedWords (first :: others) ++ [Word.delimiter] =
      first.words ++ [Word.delimiter] ++ (Program.mk others).words := by
  have nonempty : (Program.mk (first :: others)).statements ≠ [] := by
    simp
  rw [← Program.words_eq_joinedWords nonempty]
  exact List.flatMap_cons

/-- Without else branch, a conditional releases all but the first statement of
its then branch. -/
theorem releases_withoutElse
    (condition : Comparison)
    (first : Statement)
    (others : List Statement) :
    (conditional condition (first :: others) none).Releases
      (conditional condition [first] none) others where
  words_eq := by
    have branch_eq := joinedWords_cons_delimiter first others
    rw [words, words, ← joinedWords, ← joinedWords, joinedWords_singleton]
    simp only [List.cons_append, List.append_assoc] at branch_eq ⊢
    rw [branch_eq]
  operands_eq := by
    simp [operands]
  values_eq := by
    simp [values]

/-- A conditional releases all but the first statement of its else branch. -/
theorem releases_withElse
    (condition : Comparison)
    (thenBranch : List Statement)
    (first : Statement)
    (others : List Statement) :
    (conditional condition thenBranch (some (first :: others))).Releases
      (conditional condition thenBranch (some [first])) others where
  words_eq := by
    have branch_eq := joinedWords_cons_delimiter first others
    rw [words, words_withElse_singleton, ← joinedWords, ← joinedWords]
    simp only [List.cons_append, List.append_assoc] at branch_eq ⊢
    rw [branch_eq]
  operands_eq := by
    simp [operands]
  values_eq := by
    simp [values]

end Statement

/-! ## Programs -/

namespace Program

/-- Names and numbers are spelled as such, and each assigned expression is a
value, followed by operators with values and by groups. -/
structure HasReadableParts (program : Program) : Prop where
  /-- Names and numbers are spelled as such. -/
  spelled : ∀ operand ∈ program.operands, operand.IsSpelled
  /-- The expressions have the form of an expression. -/
  composed : ∀ value ∈ program.values, value.IsComposed

section Released

variable
  {before released after : List Statement}
  {longer shorter : Statement}

/-- Released statements are read behind the statement that they leave. -/
theorem ofSource_layout_of_releases
    (releases : longer.Releases shorter released)
    (parts : HasReadableParts ⟨before ++ [longer] ++ after⟩)
    (areAssignments : ∀ statement ∈ before, statement.isConditional = false)
    (isSequence : Statement.IsSequence (shorter :: (released ++ after))) :
    Program.ofSource (Program.mk (before ++ [longer] ++ after)).layout =
      .ok ⟨before ++ [shorter] ++ released ++ after⟩ := by
  have operands_eq :
      (Program.mk (before ++ [shorter] ++ released ++ after)).operands =
        (Program.mk (before ++ [longer] ++ after)).operands := by
    simp [operands, releases.operands_eq]
  have values_eq :
      (Program.mk (before ++ [shorter] ++ released ++ after)).values =
        (Program.mk (before ++ [longer] ++ after)).values := by
    simp [values, releases.values_eq]
  have words_eq :
      (Program.mk (before ++ [longer] ++ after)).words =
        (Program.mk (before ++ [shorter] ++ released ++ after)).words := by
    simp [words, releases.words_eq]
  apply IsCanonical.ofSource_layout_of_words_eq _ words_eq
  -- The parts are those of the longer statement; only the order of statements
  -- has to be looked at in the program that is read.
  refine ⟨?_, ?_, ?_⟩
  · rw [operands_eq]
    exact parts.spelled
  · rw [values_eq]
    intro value member
    exact (parts.composed value member).alternates
  · simp only [List.append_assoc, List.cons_append, List.nil_append]
    exact isSequence.prepend_assignments areAssignments

end Released

/-- The canonical text of a conditional with a long last branch is read as the
conditional with the first statement of that branch, and the others follow
it. -/
theorem layout_releases_last_branch
    {condition : Comparison}
    {first : Statement}
    {before others after : List Statement}
    (beforeAssign : ∀ statement ∈ before, statement.isConditional = false)
    (firstSimple : first.IsSimple)
    (othersSimple : ∀ statement ∈ others, statement.IsSimple)
    (afterSimple : ∀ statement ∈ after, statement.IsSimple) :
    (HasReadableParts
          ⟨before ++ [Statement.conditional condition (first :: others) none] ++
            after⟩ →
        Program.ofSource
            (Program.mk
              (before ++
                [Statement.conditional condition (first :: others) none] ++
                  after)).layout =
          .ok
            ⟨before ++ [Statement.conditional condition [first] none] ++
              others ++ after⟩) ∧
      ∀ thenBranch,
        thenBranch ≠ [] → Statement.IsSequence thenBranch →
          HasReadableParts
              ⟨before ++
                [Statement.conditional condition thenBranch
                  (some (first :: others))] ++
                    after⟩ →
            Program.ofSource
                (Program.mk
                  (before ++
                    [Statement.conditional condition thenBranch
                      (some (first :: others))] ++
                        after)).layout =
              .ok
                ⟨before ++
                  [Statement.conditional condition thenBranch (some [first])] ++
                    others ++ after⟩ := by
  have behindSimple :
      ∀ statement ∈ others ++ after, statement.IsSimple :=
    List.forall_mem_append.mpr ⟨othersSimple, afterSimple⟩
  have behindSequence := Statement.IsSequence.of_forall_isSimple behindSimple
  have behindLacks :
      ∀ statement ∈ others ++ after, statement.LacksElse := by
    intro statement member
    exact (behindSimple statement member).lacksElse
  constructor
  · intro parts
    apply ofSource_layout_of_releases
      (Statement.releases_withoutElse condition first others) parts beforeAssign
    exact .simple (.conditional firstSimple) behindLacks behindSequence
  · intro thenBranch nonempty thenSequence parts
    apply ofSource_layout_of_releases
      (Statement.releases_withElse condition thenBranch first others) parts
      beforeAssign
    exact .choice nonempty thenSequence firstSimple behindLacks behindSequence

/-- Both kinds of last branches release an assignment, which gets in front of
the conditional behind them.  The nested choice in a then branch is kept. -/
theorem layout_releases_last_branch_built :
    ∃ condition : Comparison,
      ∃ first second single nested : Statement,
        ∃ withoutElse withElse : Conditional,
          condition = .less (Operand.ofText "a") (Operand.ofText "b") ∧
            first = (Assignment.mk "x" (Operand.ofText "c") : Assignment) ∧
            second = (Assignment.mk "y" (Operand.ofText "d") : Assignment) ∧
            single = (Conditional.ofComparison condition).andThen first ∧
            nested =
              ((Conditional.ofComparison condition).andThen first).otherwise
                second ∧
            withoutElse =
              ((Conditional.ofComparison condition).andThen single).andThen
                second ∧
            withElse =
              (((Conditional.ofComparison condition).andThen nested).otherwise
                first).otherwise second ∧
            Program.ofSource
                (Program.mk
                  ([first] ++ [(withoutElse : Statement)] ++ [single])).layout =
              .ok
                ⟨[first] ++ [Statement.conditional condition [single] none] ++
                  [second] ++ [single]⟩ ∧
            Program.ofSource
                (Program.mk
                  ([first] ++ [(withElse : Statement)] ++ [single])).layout =
              .ok
                ⟨[first] ++
                  [Statement.conditional condition [nested] (some [first])] ++
                    [second] ++ [single]⟩ := by
  let condition : Comparison :=
    .less (Operand.ofText "a") (Operand.ofText "b")
  let first : Statement := .assignment "x" (.value (Operand.ofText "c"))
  let second : Statement := .assignment "y" (.value (Operand.ofText "d"))
  let single : Statement := .conditional condition [first] none
  let nested : Statement := .conditional condition [first] (some [second])
  have singleSimple : single.IsSimple := .conditional .assignment
  have secondSimple : ∀ statement ∈ [second], statement.IsSimple :=
    List.forall_mem_singleton.mpr .assignment
  have afterSimple : ∀ statement ∈ [single], statement.IsSimple :=
    List.forall_mem_singleton.mpr singleSimple
  have beforeAssign :
      ∀ statement ∈ [first], statement.isConditional = false :=
    List.forall_mem_singleton.mpr rfl
  have nestedSequence : Statement.IsSequence [nested] :=
    .choice (by simp) (.assignment .nil) .assignment (by simp) .nil
  have areReadable
      {program : Program}
      (operands_in :
        program.operands.all
          (["a", "b", "c", "d", "x", "y"].map Operand.identifier).contains =
            true)
      (values_in :
        program.values.all
          [[.operand (.identifier "c")],
            [.operand (.identifier "d")]].contains =
              true) :
      program.HasReadableParts := by
    rw [List.all_eq_true] at operands_in values_in
    constructor
    · intro operand member
      have named := List.contains_iff_mem.mp (operands_in operand member)
      obtain ⟨text, textMember, rfl⟩ := List.mem_map.mp named
      simp only [List.mem_cons, List.not_mem_nil, or_false] at textMember
      rcases textMember with rfl | rfl | rfl | rfl | rfl | rfl <;>
        exact IsName.of_toList_eq_singleton rfl rfl
    · intro value member
      have listed := List.contains_iff_mem.mp (values_in value member)
      simp only [List.mem_cons, List.not_mem_nil, or_false] at listed
      rcases listed with rfl | rfl <;> exact .operand
  have singleParts :
      HasReadableParts
        ⟨[first] ++
          [Statement.conditional condition (single :: [second]) none] ++
            [single]⟩ := by
    apply areReadable
    · cbv
    · cbv
  have nestedParts :
      HasReadableParts
        ⟨[first] ++
          [Statement.conditional condition [nested]
            (some (first :: [second]))] ++
              [single]⟩ := by
    apply areReadable
    · cbv
    · cbv
  have singleReleases :=
    (layout_releases_last_branch beforeAssign singleSimple secondSimple
      afterSimple).1 singleParts
  have nestedReleases :=
    (layout_releases_last_branch beforeAssign .assignment secondSimple
      afterSimple).2 [nested] (by simp) nestedSequence nestedParts
  exact ⟨condition, first, second, single, nested, _, _, rfl, rfl, rfl, rfl,
    rfl, rfl, rfl, singleReleases, nestedReleases⟩

end Program

end ConditionalAssignment
