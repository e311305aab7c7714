import ConditionalAssignment.Proofs.Grammar.Redundant
import ConditionalAssignment.Tree.Lowering

/-!
# The leaves of a program

Lowering a program to a tree keeps its words except for the punctuation, which
is the delimiters and the brackets.  The tree writes down signs and reserved
words anew, and it nests what the words only put in order; its leaves from left
to right are nevertheless the texts of the words that are left.
-/

namespace ConditionalAssignment

/-! ## Punctuation -/

/-- The kind of a delimiter or of a bracket. -/
def TokenKind.isPunctuation : TokenKind → Bool
  | delimiter | openBracket | closeBracket => true
  | _ => false

namespace Word

/-- The texts of the words that are no punctuation, in order. -/
def spellings (words : List Word) : List String :=
  (words.filter fun word => !word.kind.isPunctuation).map Word.text

@[simp] theorem spellings_nil : spellings [] = [] :=
  rfl

theorem spellings_cons_of_isPunctuation
    {first : Word}
    (isPunctuation : first.kind.isPunctuation = true)
    (others : List Word) :
    spellings (first :: others) = spellings others := by
  simp [spellings, isPunctuation]

theorem spellings_cons_of_not_isPunctuation
    {first : Word}
    (noPunctuation : first.kind.isPunctuation = false)
    (others : List Word) :
    spellings (first :: others) = first.text :: spellings others := by
  simp [spellings, noPunctuation]

@[simp] theorem spellings_append (first second : List Word) :
    spellings (first ++ second) = spellings first ++ spellings second := by
  simp only [spellings, List.filter_append, List.map_append]

theorem spellings_flatMap
    {item : Type}
    (words : item → List Word)
    (items : List item) :
    spellings (items.flatMap words) =
      items.flatMap fun found => spellings (words found) := by
  simp only [spellings, List.filter_flatMap, List.map_flatMap]

/-- The spellings of the words of tokens are those of the tokens. -/
theorem spellings_map_word (tokens : List Token) :
    spellings (tokens.map Token.word) =
      (tokens.filter fun token => !token.kind.isPunctuation).map
        Token.text := by
  simp only [spellings, List.filter_map, List.map_map]
  rfl

/-- Redundant delimiters are punctuation. -/
theorem spellings_dropRedundant (words : List Word) :
    spellings (dropRedundant words) = spellings words := by
  induction words with
  | nil => rfl
  | cons first others inductionHypothesis =>
      rw [dropRedundant]
      split
      · rename_i leaves
        have isPunctuation : first.kind.isPunctuation = true := by
          rw [leaves.1]
          rfl
        rw [inductionHypothesis, spellings_cons_of_isPunctuation isPunctuation]
      · have kept (behind : List Word) :
            spellings (first :: behind) = spellings [first] ++ spellings behind :=
          spellings_append [first] behind
        rw [kept (dropRedundant others), inductionHypothesis, ← kept]

@[simp] theorem spellings_operand
    (operand : Operand)
    (others : List Word) :
    spellings (operand.word :: others) = operand.text :: spellings others := by
  cases operand <;> rfl

@[simp] theorem spellings_ofKeyword
    (keyword : Keyword)
    (others : List Word) :
    spellings (ofKeyword keyword :: others) =
      keyword.spelling :: spellings others :=
  rfl

end Word

/-! ## Expressions -/

/-- The leaves of trees are the spellings of words if those of each tree are
the spellings of the words that belong to it. -/
theorem Tree.leaves_group_map
    {item : Type}
    {tree : item → Tree}
    {words : item → List Word}
    {items : List item}
    (leaves_eq : ∀ found ∈ items,
      (tree found).leaves = Word.spellings (words found)) :
    (Tree.group (items.map tree)).leaves =
      Word.spellings (items.flatMap words) := by
  rw [leaves_group, List.flatMap_map, Word.spellings_flatMap,
    List.flatMap_def, List.flatMap_def, List.map_congr_left leaves_eq]

/-- The leaves of a term are its words without the brackets of groups. -/
theorem Term.leaves_tree (term : Term) :
    term.tree.leaves = Word.spellings term.words := by
  induction term using Term.induction with
  | operand value =>
      rw [tree, words, Tree.leaves_leaf, Word.spellings_operand]
      rfl
  | operator sign =>
      rw [tree, words, Tree.leaves_leaf]
      rfl
  | group bracket inner inductionHypothesis =>
      have inner_eq := Tree.leaves_group_map inductionHypothesis
      rw [words, Word.spellings_cons_of_isPunctuation rfl,
        Word.spellings_append, Word.spellings_cons_of_isPunctuation rfl,
        ← inner_eq, tree]
      simp

theorem Expression.leaves_tree (expression : Expression) :
    expression.tree.leaves = Word.spellings expression.words :=
  Tree.leaves_group_map fun term _ => term.leaves_tree

theorem Comparison.leaves_tree (comparison : Comparison) :
    comparison.tree.leaves = Word.spellings comparison.words := by
  rw [words, Word.spellings_operand,
    Word.spellings_cons_of_not_isPunctuation rfl, Word.spellings_operand]
  simp [tree]

/-! ## Statements -/

namespace Statement

/-- The delimiters between the statements of a branch are punctuation. -/
theorem spellings_joinedWords (branch : List Statement) :
    Word.spellings (joinedWords branch) =
      Word.spellings (branch.flatMap words) := by
  induction branch with
  | nil => rfl
  | cons first others inductionHypothesis =>
      cases others with
      | nil => simp
      | cons second others =>
          rw [joinedWords_cons_cons, List.flatMap_cons, Word.spellings_append,
            Word.spellings_append, Word.spellings_cons_of_isPunctuation rfl,
            inductionHypothesis]

theorem leaves_tree (statement : Statement) :
    statement.tree.leaves = Word.spellings statement.words := by
  induction statement using Statement.induction with
  | assignment target value =>
      rw [words, Word.spellings_cons_of_not_isPunctuation rfl,
        Word.spellings_cons_of_not_isPunctuation rfl, tree]
      simp [Expression.leaves_tree, Word.assignment]
  | withoutElse condition thenBranch thenHypothesis =>
      have then_eq := Tree.leaves_group_map thenHypothesis
      rw [Tree.leaves_group] at then_eq
      rw [tree, words, ← joinedWords]
      simp [condition.leaves_tree, spellings_joinedWords, then_eq]
  | withElse condition thenBranch elseBranch thenHypothesis elseHypothesis =>
      have then_eq := Tree.leaves_group_map thenHypothesis
      have else_eq := Tree.leaves_group_map elseHypothesis
      rw [Tree.leaves_group] at then_eq else_eq
      rw [tree, words, ← joinedWords, ← joinedWords]
      simp [condition.leaves_tree, spellings_joinedWords, then_eq, else_eq]

end Statement

/-! ## Programs -/

/-- The leaves of every program are its words without punctuation. -/
theorem Program.leaves_tree (program : Program) :
    program.tree.leaves = Word.spellings program.words := by
  apply Tree.leaves_group_map
  intro statement _
  rw [Word.spellings_append, statement.leaves_tree]
  exact (List.append_nil _).symm

/-- A program that is read from valid words has their spellings as leaves. -/
theorem Statement.ReadsRange.leaves_tree
    {readWords : List Word}
    {program : Program}
    (reads : ReadsRange .required readWords program.statements)
    (valid : ∀ word ∈ readWords, word.IsValid) :
    program.tree.leaves = Word.spellings readWords := by
  rw [program.leaves_tree, ← reads.dropRedundant_eq valid,
    Word.spellings_dropRedundant]

end ConditionalAssignment
