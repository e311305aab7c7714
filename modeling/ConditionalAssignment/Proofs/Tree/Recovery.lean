import ConditionalAssignment.Proofs.Tree.Filled
import ConditionalAssignment.Proofs.Tree.Outline
import ConditionalAssignment.Proofs.Tree.Rounded
import Mathlib

/-!
# Trees from outlines

A label that is missing and a label that reads like the text in its place are
drawn alike, so an outline does not tell every tree from every other.  It does
tell trees in which each node below the root is a leaf or a group with children:
a title belongs to a group exactly if lines hang below it.

The lines below a node fall into blocks, one for each child.  A block starts
with a connector, and all its other lines start with a margin, so the first
character of a line tells where a block ends, whatever the labels are.
-/

namespace ConditionalAssignment

/-- A list has only one split into elements that fail a test and a rest that
starts with one that succeeds. -/
theorem append_inj_of_head?
    {item : Type}
    {test : item → Bool}
    {leftFront leftRest rightFront rightRest : List item}
    (leftFails : ∀ found ∈ leftFront, test found = false)
    (leftStarts : ∀ found ∈ leftRest.head?, test found = true)
    (rightFails : ∀ found ∈ rightFront, test found = false)
    (rightStarts : ∀ found ∈ rightRest.head?, test found = true)
    (whole_eq : leftFront ++ leftRest = rightFront ++ rightRest) :
    leftFront = rightFront ∧ leftRest = rightRest := by
  have front_eq
      {front rest : List item}
      (fails : ∀ found ∈ front, test found = false)
      (starts : ∀ found ∈ rest.head?, test found = true) :
      (front ++ rest).takeWhile (fun found => !test found) = front := by
    have rest_eq : rest.takeWhile (fun found => !test found) = [] := by
      cases rest with
      | nil => rfl
      | cons first others => simp [starts first rfl]
    rw [List.takeWhile_append_of_pos (by simpa using fails), rest_eq,
      List.append_nil]
  have fronts_eq : leftFront = rightFront := by
    rw [← front_eq leftFails leftStarts, whole_eq,
      front_eq rightFails rightStarts]
  subst fronts_eq
  exact ⟨rfl, List.append_cancel_left whole_eq⟩

/-- Lines that are each closed by a line feed can be told apart. -/
theorem join_lines_inj
    {left right : List String}
    (leftLines : ∀ line ∈ left, IsLine line)
    (rightLines : ∀ line ∈ right, IsLine line)
    (join_eq :
      String.join (left.map (· ++ "\n")) =
        String.join (right.map (· ++ "\n"))) :
    left = right := by
  induction left generalizing right with
  | nil =>
      cases right with
      | nil => rfl
      | cons second others => simp [String.join_cons] at join_eq
  | cons first others inductionHypothesis =>
      cases right with
      | nil => simp [String.join_cons] at join_eq
      | cons second rest =>
          rw [List.forall_mem_cons] at leftLines rightLines
          have toList_eq := congrArg String.toList join_eq
          simp only [List.map_cons, String.join_cons, String.append_assoc,
            String.toList_append] at toList_eq
          have fails {line : String} (isLine : IsLine line) :
              ∀ character ∈ line.toList, (character == '\n') = false := by
            rintro character member
            exact beq_false_of_ne (ne_of_mem_of_not_mem member isLine)
          have starts (others : List Char) :
              ∀ character ∈ ("\n".toList ++ others).head?,
                (character == '\n') = true := by
            rintro character ⟨⟩
            rfl
          obtain ⟨first_eq, rest_eq⟩ :=
            append_inj_of_head? (fails leftLines.1) (starts _)
              (fails rightLines.1) (starts _) toList_eq
          have others_eq :=
            inductionHypothesis leftLines.2 rightLines.2
              (String.toList_inj.mp (List.append_cancel_left rest_eq))
          rw [String.toList_inj.mp first_eq, others_eq]

namespace Tree

/-! ## Blocks of lines -/

/-- The line starts with a connector. -/
def startsBlock (line : String) : Bool :=
  line.toList.head? = some '├' || line.toList.head? = some '└'

theorem startsBlock_connector (isLast : Bool) (line : String) :
    startsBlock (connector isLast ++ line) = true := by
  cases isLast <;> simp [startsBlock, connector]

theorem startsBlock_margin (isLast : Bool) (line : String) :
    startsBlock (margin isLast ++ line) = false := by
  cases isLast <;> simp [startsBlock, margin]

/-- A connector can be told from the line behind it. -/
theorem connector_append_inj
    {leftLast rightLast : Bool}
    {left right : String}
    (line_eq : connector leftLast ++ left = connector rightLast ++ right) :
    leftLast = rightLast ∧ left = right := by
  have head_eq := congrArg (fun line => line.toList.head?) line_eq
  cases leftLast <;> cases rightLast
  · exact ⟨rfl, (String.append_right_inj _).mp line_eq⟩
  · simp [connector] at head_eq
  · simp [connector] at head_eq
  · exact ⟨rfl, (String.append_right_inj _).mp line_eq⟩

theorem startsBlock_of_mem_head?_hangAll
    {blocks : List (List String)}
    (nonempty : ∀ block ∈ blocks, block ≠ []) :
    ∀ line ∈ (hangAll blocks).head?, startsBlock line = true := by
  cases blocks with
  | nil => simp [hangAll]
  | cons block others =>
      obtain ⟨first, rest, rfl⟩ :=
        List.exists_cons_of_ne_nil (nonempty block (.head _))
      rw [hangAll_cons, hang]
      simp [startsBlock_connector]

/-- The other lines of a block can be told from the next block. -/
theorem margin_append_inj
    {isLast : Bool}
    {leftOthers rightOthers : List String}
    {leftBlocks rightBlocks : List (List String)}
    (leftNonempty : ∀ block ∈ leftBlocks, block ≠ [])
    (rightNonempty : ∀ block ∈ rightBlocks, block ≠ [])
    (lines_eq :
      leftOthers.map (margin isLast ++ ·) ++ hangAll leftBlocks =
        rightOthers.map (margin isLast ++ ·) ++ hangAll rightBlocks) :
    leftOthers = rightOthers ∧ hangAll leftBlocks = hangAll rightBlocks := by
  have fails (others : List String) :
      ∀ line ∈ others.map (margin isLast ++ ·), startsBlock line = false := by
    rw [List.forall_mem_map]
    intro line _
    exact startsBlock_margin isLast line
  obtain ⟨others_eq, blocks_eq⟩ :=
    append_inj_of_head? (fails leftOthers)
      (startsBlock_of_mem_head?_hangAll leftNonempty) (fails rightOthers)
      (startsBlock_of_mem_head?_hangAll rightNonempty) lines_eq
  have isInjective : Function.Injective (margin isLast ++ ·) := by
    intro first second
    exact (String.append_right_inj _).mp
  exact ⟨isInjective.list_map others_eq, blocks_eq⟩

/-- Blocks can be told apart once they hang below their parent. -/
theorem hangAll_inj
    {left right : List (List String)}
    (leftNonempty : ∀ block ∈ left, block ≠ [])
    (rightNonempty : ∀ block ∈ right, block ≠ [])
    (hangAll_eq : hangAll left = hangAll right) :
    left = right := by
  induction left generalizing right with
  | nil =>
      cases right with
      | nil => rfl
      | cons block blocks =>
          obtain ⟨first, others, rfl⟩ :=
            List.exists_cons_of_ne_nil (rightNonempty block (.head _))
          rw [hangAll_cons] at hangAll_eq
          cases hangAll_eq
  | cons leftBlock leftBlocks inductionHypothesis =>
      obtain ⟨leftFirst, leftOthers, rfl⟩ :=
        List.exists_cons_of_ne_nil (leftNonempty leftBlock (.head _))
      cases right with
      | nil =>
          rw [hangAll_cons] at hangAll_eq
          cases hangAll_eq
      | cons rightBlock rightBlocks =>
          obtain ⟨rightFirst, rightOthers, rfl⟩ :=
            List.exists_cons_of_ne_nil (rightNonempty rightBlock (.head _))
          -- The connectors tell first whether these blocks are the last ones.
          -- Only then are the margins behind them known to agree.
          rw [List.forall_mem_cons] at leftNonempty rightNonempty
          rw [hangAll_cons, hangAll_cons, hang, hang, List.cons_append,
            List.cons_append, List.cons.injEq] at hangAll_eq
          obtain ⟨first_eq, behind_eq⟩ := hangAll_eq
          obtain ⟨isLast_eq, rfl⟩ := connector_append_inj first_eq
          rw [isLast_eq] at behind_eq
          obtain ⟨rfl, blocks_eq⟩ :=
            margin_append_inj leftNonempty.2 rightNonempty.2 behind_eq
          rw [inductionHypothesis leftNonempty.2 rightNonempty.2 blocks_eq]

/-! ## Trees -/

theorem lines_ne_nil (tree : Tree) : tree.lines ≠ [] := by
  cases tree
  rw [lines]
  simp

/-- Children are told by their lines if each of them is. -/
theorem eq_of_hangAll_map_lines_eq
    {left right : List Tree}
    (told : ∀ one ∈ left, ∀ other ∈ right,
      one.lines = other.lines → one = other)
    (lines_eq : hangAll (left.map lines) = hangAll (right.map lines)) :
    left = right := by
  have nonempty (children : List Tree) :
      ∀ block ∈ children.map lines, block ≠ [] := by
    rw [List.forall_mem_map]
    intro child _
    exact child.lines_ne_nil
  have blocks_eq := hangAll_inj (nonempty left) (nonempty right) lines_eq
  have same : left.map id = right.map id := by
    refine (map_eq_map_iff_of_forall ?_).mp blocks_eq
    intro one oneMember other otherMember
    exact ⟨told one oneMember other otherMember, congrArg lines⟩
  rwa [List.map_id, List.map_id] at same

/-- A title that is drawn alike belongs to the same label, if the nodes are
leaves or groups with children and have the same children. -/
theorem IsFilled.label_eq
    {leftLabel rightLabel : Option String}
    {children : List Tree}
    (leftFilled : (node leftLabel children).IsFilled)
    (rightFilled : (node rightLabel children).IsFilled)
    (title_eq : leftLabel.getD untitled = rightLabel.getD untitled) :
    leftLabel = rightLabel := by
  cases leftFilled with
  | leaf =>
      cases rightFilled with
      | leaf => exact congrArg some title_eq
  | group =>
      cases rightFilled with
      | group => rfl

/-- Trees whose nodes are leaves or groups with children are told by their
lines. -/
theorem eq_of_lines_eq
    {left right : Tree}
    (leftFilled : left.AllFilled)
    (rightFilled : right.AllFilled)
    (lines_eq : left.lines = right.lines) :
    left = right := by
  induction left using Tree.induction generalizing right with
  | node leftLabel leftChildren inductionHypothesis =>
      obtain ⟨rightLabel, rightChildren⟩ := right
      rw [AllFilled, subtrees, List.forall_mem_cons, List.forall_mem_flatMap]
        at leftFilled rightFilled
      rw [lines, lines, List.cons.injEq] at lines_eq
      obtain ⟨title_eq, below_eq⟩ := lines_eq
      obtain rfl : leftChildren = rightChildren := by
        apply eq_of_hangAll_map_lines_eq _ below_eq
        intro one oneMember other otherMember
        exact inductionHypothesis one oneMember (leftFilled.2 one oneMember)
          (rightFilled.2 other otherMember)
      rw [leftFilled.1.label_eq rightFilled.1 title_eq]

/-- The outline of an unlabelled root determines its children, if they are
leaves or groups with children, and so are all nodes below them. -/
theorem eq_of_outline_group_eq
    {left right : List Tree}
    (leftFilled : ∀ child ∈ left, child.AllFilled)
    (rightFilled : ∀ child ∈ right, child.AllFilled)
    (leftLines : ∀ label ∈ (group left).labels, IsLine label)
    (rightLines : ∀ label ∈ (group right).labels, IsLine label)
    (outline_eq : (group left).outline = (group right).outline) :
    left = right := by
  have lines_eq :=
    join_lines_inj (isLine_of_mem_lines leftLines)
      (isLine_of_mem_lines rightLines) outline_eq
  rw [group, group, lines, lines, List.cons.injEq] at lines_eq
  apply eq_of_hangAll_map_lines_eq _ lines_eq.2
  intro one oneMember other otherMember
  exact eq_of_lines_eq (leftFilled one oneMember)
    (rightFilled other otherMember)

end Tree

end ConditionalAssignment
