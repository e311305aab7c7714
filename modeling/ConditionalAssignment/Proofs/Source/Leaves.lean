import ConditionalAssignment.Proofs.Source.Reading
import ConditionalAssignment.Proofs.Tree.Leaves
import Mathlib

/-!
# Leaves of texts

The leaves of the tree of a text are the texts of its tokens, in order, except
for delimiters and brackets.  The same holds for the canonical text of every
program, also of a program that this text does not read as: the layout always
splits into the words of the program, and its brackets are always balanced.
-/

namespace ConditionalAssignment

/-- The tree of a text keeps all tokens but the punctuation, in order. -/
theorem Tree.leaves_of_ofSource
    {source : String}
    {tree : Tree}
    (read : Tree.ofSource source = .ok tree) :
    ∃ tokens,
      Token.ofSource source = .ok tokens ∧
        tree.leaves =
          (tokens.filter fun token => !token.kind.isPunctuation).map
            Token.text := by
  rw [ofSource_eq] at read
  obtain ⟨program, programRead, rfl⟩ := map_eq_ok_iff.mp read
  obtain ⟨tokens, lexed, tokensRead⟩ :=
    Program.ofSource_eq_ok_iff.mp programRead
  have reads := Program.ofTokens_eq_ok_iff.mp tokensRead
  refine ⟨tokens, lexed, ?_⟩
  rw [reads.leaves_tree (Token.isValid_of_ofSource lexed),
    Word.spellings_map_word]

/-- Both brackets of the group and both delimiters are left out. -/
theorem Tree.leaves_of_ofSource_choice :
    ∃ tree tokens,
      Tree.ofSource "if a<b then x:=[y+1]; else z:=2;" = .ok tree ∧
        Token.ofSource "if a<b then x:=[y+1]; else z:=2;" = .ok tokens ∧
          tree.leaves =
              (tokens.filter fun token => !token.kind.isPunctuation).map
                Token.text ∧
            tree.leaves =
              ["if", "a", "<", "b", "then", "x", ":=", "y", "+", "1", "else",
                "z", ":=", "2"] := by
  have read :
      Tree.ofSource "if a<b then x:=[y+1]; else z:=2;" =
        .ok
          (.group
            [.group
              [.leaf "if", .group [.leaf "a", .leaf "<", .leaf "b"],
                .leaf "then",
                .group
                  [.leaf "x", .leaf ":=",
                    .group
                      [.group [.group [.leaf "y", .leaf "+", .leaf "1"]]]],
                .leaf "else",
                .group [.leaf "z", .leaf ":=", .group [.leaf "2"]]]]) := by
    cbv
  obtain ⟨tokens, lexed, leaves_eq⟩ := leaves_of_ofSource read
  refine ⟨_, tokens, read, lexed, leaves_eq, ?_⟩
  simp

/-- The canonical text of every program whose names and numbers are spelled as
such splits into the words of the program, has balanced brackets and keeps the
leaves of the program. -/
theorem Program.layout_keeps_leaves
    {program : Program}
    (spelled : ∀ operand ∈ program.operands, operand.IsSpelled) :
    ∃ tokens,
      Token.ofSource program.layout = .ok tokens ∧
        tokens.map Token.word = program.words ∧
          Balance.check program.layout = .ok () ∧
            (tokens.filter fun token => !token.kind.isPunctuation).map
                Token.text =
              program.tree.leaves := by
  have valid := program.isValid_words_iff.mpr spelled
  have spells := spells_layout valid
  obtain ⟨tokens, lexed, words_eq⟩ := Token.ofSource_of_spells spells
  refine ⟨tokens, lexed, words_eq, ?_, ?_⟩
  · apply Balance.check_of_balanced
    rw [spells.bracketsOf_eq]
    exact balanced_words spelled
  · rw [← Word.spellings_map_word, words_eq, program.leaves_tree]

/-- Branches and groups may be empty, and operators may follow each other. -/
theorem Program.layout_keeps_leaves_unreadable :
    ∃ program : Program, ∃ tokens,
      (∀ operand ∈ program.operands, operand.IsSpelled) ∧
        program.layout = "if a < 1.5 then  else ;\nx := + - \x7b\x7d;\n" ∧
          Token.ofSource program.layout = .ok tokens ∧
            Balance.check program.layout = .ok () ∧
              (tokens.filter fun token => !token.kind.isPunctuation).map
                  Token.text =
                program.tree.leaves ∧
                program.tree.leaves =
                  ["if", "a", "<", "1.5", "then", "else", "x", ":=", "+",
                    "-"] := by
  let program : Program :=
    ⟨[.conditional ⟨.identifier "a", .less, .constant "1.5"⟩ [] (some []),
      .assignment "x"
        [.operator .add, .operator .subtract, .group .curly []]]⟩
  have operands_eq :
      program.operands =
        [.identifier "a", .constant "1.5", .identifier "x"] := by
    cbv
  have spelled : ∀ operand ∈ program.operands, operand.IsSpelled := by
    have aName : IsName "a" := .of_toList_eq_singleton rfl rfl
    have xName : IsName "x" := .of_toList_eq_singleton rfl rfl
    have isNumber : IsNumber "1.5" :=
      ⟨['1'], ['.', '5'], [], ⟨by simp, List.forall_mem_singleton.mpr rfl⟩,
        Or.inr ⟨['5'], ⟨by simp, List.forall_mem_singleton.mpr rfl⟩, rfl⟩,
        Or.inl rfl, rfl⟩
    rw [operands_eq]
    simp [Operand.IsSpelled, aName, xName, isNumber]
  obtain ⟨tokens, lexed, _, balanced, leaves_eq⟩ :=
    layout_keeps_leaves spelled
  refine ⟨program, tokens, spelled, ?_, lexed, balanced, leaves_eq, ?_⟩
  · cbv
  · cbv

end ConditionalAssignment
