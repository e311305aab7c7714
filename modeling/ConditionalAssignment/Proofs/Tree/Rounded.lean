import ConditionalAssignment.Proofs.Grammar.Words
import ConditionalAssignment.Proofs.Lexing.Munch
import ConditionalAssignment.Tree.Lowering

/-!
# What lowering loses

Lowering keeps spellings and nesting, and drops what the parts of a program are.
If the names and numbers are spelled as such, nothing but the families of the
brackets is lost by that: a text is a spelling of one kind only, and no
statement is lowered to a leaf, so the reserved words between the branches of a
conditional tell them apart.

A program is rounded if all its brackets are replaced by parentheses.  Two
programs have the same tree exactly if they are equal after rounding, whatever
their structure is.
-/

namespace ConditionalAssignment

/-! ## Rounding -/

/-- The term with parentheses in place of all brackets. -/
def Term.rounded : Term → Term
  | .operand value => .operand value
  | .operator sign => .operator sign
  | .group _ inner => .group .round (inner.map Term.rounded)

/-- The expression with parentheses in place of all brackets. -/
def Expression.rounded (expression : Expression) : Expression :=
  expression.map Term.rounded

/-- The statement with parentheses in place of all brackets. -/
def Statement.rounded : Statement → Statement
  | assignment target value => assignment target (Expression.rounded value)
  | conditional condition thenBranch none =>
      conditional condition (thenBranch.map rounded) none
  | conditional condition thenBranch (some elseBranch) =>
      conditional condition (thenBranch.map rounded)
        (some (elseBranch.map rounded))
termination_by statement => sizeOf statement
decreasing_by
  · exact sizeOf_lt_of_mem_thenBranch ‹_›
  · exact sizeOf_lt_of_mem_thenBranch ‹_›
  · exact sizeOf_lt_of_mem_elseBranch ‹_›

/-- The program with parentheses in place of all brackets. -/
def Program.rounded (program : Program) : Program :=
  ⟨program.statements.map Statement.rounded⟩

/-! ## Lists and nodes -/

/-- Two images of lists agree together if they do so for all elements. -/
theorem map_eq_map_iff_of_forall
    {item first second : Type}
    {toFirst : item → first}
    {toSecond : item → second}
    {left right : List item}
    (agree : ∀ one ∈ left, ∀ other ∈ right,
      toFirst one = toFirst other ↔ toSecond one = toSecond other) :
    left.map toFirst = right.map toFirst ↔
      left.map toSecond = right.map toSecond := by
  induction left generalizing right with
  | nil => cases right <;> simp
  | cons one others inductionHypothesis =>
      cases right with
      | nil => simp
      | cons other rest =>
          have othersAgree := inductionHypothesis
            fun left leftMember right rightMember =>
              agree left (.tail _ leftMember) right (.tail _ rightMember)
          simp only [List.map_cons, List.cons.injEq, othersAgree,
            agree one (.head _) other (.head _)]

namespace Tree

@[simp] theorem leaf_inj {left right : String} :
    leaf left = leaf right ↔ left = right := by
  simp [leaf]

@[simp] theorem group_inj {left right : List Tree} :
    group left = group right ↔ left = right := by
  simp [group]

@[simp] theorem leaf_ne_group (spelling : String) (children : List Tree) :
    leaf spelling ≠ group children := by
  simp [leaf, group]

@[simp] theorem group_ne_leaf (children : List Tree) (spelling : String) :
    group children ≠ leaf spelling :=
  (leaf_ne_group spelling children).symm

/-- Nodes without a label do not hold a leaf. -/
theorem ne_append_leaf
    {nodes : List Tree}
    (unlabelled : ∀ node ∈ nodes, node.label = none)
    (before : List Tree)
    (spelling : String)
    (after : List Tree) :
    nodes ≠ before ++ leaf spelling :: after := by
  rintro rfl
  have impossible := unlabelled (leaf spelling) (by simp)
  cases impossible

/-- A leaf behind nodes without a label is the first leaf. -/
theorem append_leaf_inj
    {leftBefore leftAfter rightBefore rightAfter : List Tree}
    {spelling : String}
    (leftUnlabelled : ∀ node ∈ leftBefore, node.label = none)
    (rightUnlabelled : ∀ node ∈ rightBefore, node.label = none) :
    leftBefore ++ leaf spelling :: leftAfter =
        rightBefore ++ leaf spelling :: rightAfter ↔
      leftBefore = rightBefore ∧ leftAfter = rightAfter := by
  constructor
  · intro whole_eq
    have cut_eq :
        (⟨leftBefore, leaf spelling, leftAfter⟩ : Cut Tree) =
          ⟨rightBefore, leaf spelling, rightAfter⟩ := by
      apply @Cut.eq_of_before Tree fun node => node.label.isSome
      · exact whole_eq
      · rfl
      · intro node member
        simp [leftUnlabelled node member]
      · rfl
      · intro node member
        simp [rightUnlabelled node member]
    cases cut_eq
    exact ⟨rfl, rfl⟩
  · rintro ⟨rfl, rfl⟩
    rfl

end Tree

/-! ## Operands and operators -/

theorem ArithmeticOperator.symbol_inj {left right : ArithmeticOperator} :
    left.symbol = right.symbol ↔ left = right := by
  rw [← ofSymbol?_eq_some_iff, ofSymbol?_eq_some_iff.mpr rfl,
    Option.some.injEq]

theorem ComparisonOperator.symbol_inj {left right : ComparisonOperator} :
    left.symbol = right.symbol ↔ left = right := by
  rw [← ofSymbol?_eq_some_iff, ofSymbol?_eq_some_iff.mpr rfl,
    Option.some.injEq]

namespace Operand

@[simp] theorem text_word (operand : Operand) :
    operand.word.text = operand.text := by
  cases operand <;> rfl

theorem word_inj {left right : Operand} :
    left.word = right.word ↔ left = right := by
  cases left <;> cases right <;> simp [word]

/-- The text of an operand tells whether it is a name or a number. -/
theorem text_inj_of_isSpelled
    {left right : Operand}
    (leftSpelled : left.IsSpelled)
    (rightSpelled : right.IsSpelled) :
    left.text = right.text ↔ left = right := by
  constructor
  · intro text_eq
    apply word_inj.mp
    apply (left.isValid_word.mpr leftSpelled).eq_of_text_eq
      (right.isValid_word.mpr rightSpelled)
    rw [text_word, text_word, text_eq]
  · rintro rfl
    rfl

/-- No name or number is the symbol of an operator. -/
theorem text_ne_symbol
    {operand : Operand}
    (isSpelled : operand.IsSpelled)
    (operator : ArithmeticOperator) :
    operand.text ≠ operator.symbol := by
  intro text_eq
  have word_eq : operand.word = ⟨.arithmetic, operator.symbol⟩ := by
    apply (operand.isValid_word.mpr isSpelled).eq_of_text_eq
      (Word.isValid_arithmetic operator)
    rw [text_word, text_eq]
  cases operand <;> cases word_eq

end Operand

/-! ## Expressions -/

theorem Term.tree_eq_iff
    {left right : Term}
    (leftSpelled : ∀ operand ∈ left.operands, operand.IsSpelled)
    (rightSpelled : ∀ operand ∈ right.operands, operand.IsSpelled) :
    left.tree = right.tree ↔ left.rounded = right.rounded := by
  induction left using Term.induction generalizing right with
  | operand leftValue =>
      rw [operands, List.forall_mem_singleton] at leftSpelled
      cases right with
      | operand rightValue =>
          rw [operands, List.forall_mem_singleton] at rightSpelled
          simp [tree, rounded,
            Operand.text_inj_of_isSpelled leftSpelled rightSpelled]
      | operator rightSign =>
          simp [tree, rounded, Operand.text_ne_symbol leftSpelled rightSign]
      | group rightBracket rightInner => simp [tree, rounded]
  | operator leftSign =>
      cases right with
      | operand rightValue =>
          rw [operands, List.forall_mem_singleton] at rightSpelled
          simp [tree, rounded,
            (Operand.text_ne_symbol rightSpelled leftSign).symm]
      | operator rightSign =>
          simp [tree, rounded, ArithmeticOperator.symbol_inj]
      | group rightBracket rightInner => simp [tree, rounded]
  | group leftBracket leftInner inductionHypothesis =>
      cases right with
      | operand rightValue => simp [tree, rounded]
      | operator rightSign => simp [tree, rounded]
      | group rightBracket rightInner =>
          rw [operands, List.forall_mem_flatMap] at leftSpelled rightSpelled
          have inner_iff :
              leftInner.map tree = rightInner.map tree ↔
                leftInner.map rounded = rightInner.map rounded := by
            apply map_eq_map_iff_of_forall
            intro left leftMember right rightMember
            exact inductionHypothesis left leftMember
              (leftSpelled left leftMember) (rightSpelled right rightMember)
          simp [tree, rounded, inner_iff]

theorem Expression.tree_eq_iff
    {left right : Expression}
    (leftSpelled : ∀ operand ∈ left.operands, operand.IsSpelled)
    (rightSpelled : ∀ operand ∈ right.operands, operand.IsSpelled) :
    left.tree = right.tree ↔ left.rounded = right.rounded := by
  rw [operands, List.forall_mem_flatMap] at leftSpelled rightSpelled
  rw [tree, tree, Tree.group_inj]
  apply map_eq_map_iff_of_forall
  intro leftTerm leftMember rightTerm rightMember
  exact Term.tree_eq_iff (leftSpelled leftTerm leftMember)
    (rightSpelled rightTerm rightMember)

theorem Comparison.tree_eq_iff
    {left right : Comparison}
    (leftSpelled : left.left.IsSpelled ∧ left.right.IsSpelled)
    (rightSpelled : right.left.IsSpelled ∧ right.right.IsSpelled) :
    left.tree = right.tree ↔ left = right := by
  obtain ⟨leftLeft, leftOperator, leftRight⟩ := left
  obtain ⟨rightLeft, rightOperator, rightRight⟩ := right
  simp [tree, ComparisonOperator.symbol_inj,
    Operand.text_inj_of_isSpelled leftSpelled.1 rightSpelled.1,
    Operand.text_inj_of_isSpelled leftSpelled.2 rightSpelled.2]

/-! ## Statements -/

namespace Statement

/-- No statement is lowered to a leaf. -/
theorem label_tree (statement : Statement) : statement.tree.label = none := by
  cases statement with
  | assignment target value =>
      rw [tree]
      rfl
  | conditional condition thenBranch elseBranch =>
      cases elseBranch <;> rw [tree] <;> rfl

theorem label_of_mem_map_tree (branch : List Statement) :
    ∀ node ∈ branch.map tree, node.label = none :=
  List.forall_mem_map.mpr fun statement _ => statement.label_tree

/-- The tree of the statement tells it from all statements whose names and
numbers are spelled as such, up to the families of brackets. -/
def IsToldByTree (left : Statement) : Prop :=
  ∀ right : Statement,
    (∀ operand ∈ right.operands, operand.IsSpelled) →
      (left.tree = right.tree ↔ left.rounded = right.rounded)

theorem map_tree_eq_iff
    {left right : List Statement}
    (told : ∀ statement ∈ left, statement.IsToldByTree)
    (rightSpelled : ∀ operand ∈ right.flatMap operands, operand.IsSpelled) :
    left.map tree = right.map tree ↔ left.map rounded = right.map rounded := by
  rw [List.forall_mem_flatMap] at rightSpelled
  apply map_eq_map_iff_of_forall
  intro leftStatement leftMember rightStatement rightMember
  exact told leftStatement leftMember rightStatement
    (rightSpelled rightStatement rightMember)

theorem isToldByTree_assignment
    {target : String}
    {value : Expression}
    (spelled : ∀ operand ∈ value.operands, operand.IsSpelled) :
    (assignment target value).IsToldByTree := by
  intro right rightSpelled
  cases right with
  | assignment rightTarget rightValue =>
      rw [operands, List.forall_mem_cons] at rightSpelled
      simp [tree, rounded, Expression.tree_eq_iff spelled rightSpelled.2]
  | conditional rightCondition rightThen rightElse =>
      -- The second child is a sign on one side and a condition on the other.
      cases rightElse <;> simp [tree, rounded, Comparison.tree]

theorem isToldByTree_withoutElse
    {condition : Comparison}
    {thenBranch : List Statement}
    (spelled : condition.left.IsSpelled ∧ condition.right.IsSpelled)
    (thenTold : ∀ statement ∈ thenBranch, statement.IsToldByTree) :
    (conditional condition thenBranch none).IsToldByTree := by
  intro right rightSpelled
  cases right with
  | assignment rightTarget rightValue => simp [tree, rounded, Comparison.tree]
  | conditional rightCondition rightThen rightElse =>
      cases rightElse with
      | none =>
          rw [operands, List.forall_mem_cons, List.forall_mem_cons]
            at rightSpelled
          obtain ⟨rightLeft, rightRight, rightThenSpelled⟩ := rightSpelled
          simp [tree, rounded,
            Comparison.tree_eq_iff spelled ⟨rightLeft, rightRight⟩,
            map_tree_eq_iff thenTold rightThenSpelled]
      | some rightElse =>
          have noElse := Tree.ne_append_leaf (label_of_mem_map_tree thenBranch)
            (rightThen.map tree) Keyword.elseWord.spelling
            (rightElse.map tree)
          simp [tree, rounded, noElse]

theorem isToldByTree_withElse
    {condition : Comparison}
    {thenBranch elseBranch : List Statement}
    (spelled : condition.left.IsSpelled ∧ condition.right.IsSpelled)
    (thenTold : ∀ statement ∈ thenBranch, statement.IsToldByTree)
    (elseTold : ∀ statement ∈ elseBranch, statement.IsToldByTree) :
    (conditional condition thenBranch (some elseBranch)).IsToldByTree := by
  intro right rightSpelled
  cases right with
  | assignment rightTarget rightValue => simp [tree, rounded, Comparison.tree]
  | conditional rightCondition rightThen rightElse =>
      cases rightElse with
      | none =>
          have noElse := Tree.ne_append_leaf (label_of_mem_map_tree rightThen)
            (thenBranch.map tree) Keyword.elseWord.spelling
            (elseBranch.map tree)
          simp [tree, rounded, noElse.symm]
      | some rightElse =>
          rw [operands, List.forall_mem_cons, List.forall_mem_cons,
            List.forall_mem_append] at rightSpelled
          obtain ⟨rightLeft, rightRight, rightThenSpelled, rightElseSpelled⟩ :=
            rightSpelled
          -- `else` is the first leaf on both sides, so it ends equally many
          -- statements.
          simp [tree, rounded,
            Comparison.tree_eq_iff spelled ⟨rightLeft, rightRight⟩,
            Tree.append_leaf_inj (label_of_mem_map_tree thenBranch)
              (label_of_mem_map_tree rightThen),
            map_tree_eq_iff thenTold rightThenSpelled,
            map_tree_eq_iff elseTold rightElseSpelled]

theorem isToldByTree
    {statement : Statement}
    (spelled : ∀ operand ∈ statement.operands, operand.IsSpelled) :
    statement.IsToldByTree := by
  induction statement using Statement.induction with
  | assignment target value =>
      rw [operands, List.forall_mem_cons] at spelled
      exact isToldByTree_assignment spelled.2
  | withoutElse condition thenBranch thenHypothesis =>
      rw [operands, List.forall_mem_cons, List.forall_mem_cons,
        List.forall_mem_flatMap] at spelled
      obtain ⟨leftSpelled, rightSpelled, thenSpelled⟩ := spelled
      apply isToldByTree_withoutElse ⟨leftSpelled, rightSpelled⟩
      intro statement member
      exact thenHypothesis statement member (thenSpelled statement member)
  | withElse condition thenBranch elseBranch thenHypothesis elseHypothesis =>
      rw [operands, List.forall_mem_cons, List.forall_mem_cons,
        List.forall_mem_append, List.forall_mem_flatMap,
        List.forall_mem_flatMap] at spelled
      obtain ⟨leftSpelled, rightSpelled, thenSpelled, elseSpelled⟩ := spelled
      apply isToldByTree_withElse ⟨leftSpelled, rightSpelled⟩
      · intro statement member
        exact thenHypothesis statement member (thenSpelled statement member)
      · intro statement member
        exact elseHypothesis statement member (elseSpelled statement member)

end Statement

/-! ## Programs -/

/-- Programs whose names and numbers are spelled as such have the same tree
exactly if they differ in the families of brackets alone. -/
theorem Program.tree_eq_iff
    {left right : Program}
    (leftSpelled : ∀ operand ∈ left.operands, operand.IsSpelled)
    (rightSpelled : ∀ operand ∈ right.operands, operand.IsSpelled) :
    left.tree = right.tree ↔ left.rounded = right.rounded := by
  rw [operands, List.forall_mem_flatMap] at leftSpelled
  rw [tree, tree, Tree.group_inj, rounded, rounded, Program.mk.injEq]
  apply Statement.map_tree_eq_iff _ rightSpelled
  intro statement member
  exact Statement.isToldByTree (leftSpelled statement member)

end ConditionalAssignment
