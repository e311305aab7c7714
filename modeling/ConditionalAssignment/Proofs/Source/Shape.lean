import ConditionalAssignment.Proofs.Source.Lines
import ConditionalAssignment.Proofs.Source.Reading
import ConditionalAssignment.Proofs.Tree.Filled
import ConditionalAssignment.Proofs.Tree.Recovery
import ConditionalAssignment.Proofs.Tree.Rounded
import Mathlib

/-!
# The shape of what is read

The tree of any tokens that can be read has an unlabelled root, and all nodes
below it are leaves or groups with children; the program has no empty part
either.  This needs no valid words: operators and brackets with unknown texts
are included.

Two texts have the same tree exactly if their programs differ in the families
of brackets alone.  Here the words have to be valid, which those of a text are.
For the same reason the outline of a tree that was read determines that tree,
although an operator may be drawn like a group.
-/

namespace ConditionalAssignment

/-- The statements of a program that was read are lowered to trees without empty
groups. -/
theorem Program.allFilled_of_ofSource
    {source : String}
    {program : Program}
    (read : Program.ofSource source = .ok program) :
    ∀ node ∈ program.statements.map Statement.tree, node.AllFilled := by
  obtain ⟨tokens, _, tokensRead⟩ := ofSource_eq_ok_iff.mp read
  have reads := ofTokens_eq_ok_iff.mp tokensRead
  rw [List.forall_mem_map]
  intro statement member
  exact (reads.assignsFilled statement member).allFilled_tree

namespace Tree

/-- What is read from tokens has no empty part.  Every node below the root of
the tree is a leaf or a group with children.  In the program every branch holds
something, every else branch holds exactly one statement, and every expression
has a term, at every depth. -/
theorem ofTokens_has_no_empty_part
    {tokens : List Token}
    {tree : Tree}
    (read : Tree.ofTokens tokens = .ok tree) :
    tree.label = none ∧
      (∀ node ∈ tree.descendants, node.IsFilled) ∧
        ∃ program,
          Program.ofTokens tokens = .ok program ∧ tree = program.tree ∧
            (∀ statement ∈ program.preorder, statement.HasFilledBranches) ∧
              ∀ value ∈ program.values, ∀ part ∈ value.parts, part ≠ [] := by
  obtain ⟨program, programRead, rfl⟩ := map_eq_ok_iff.mp read
  have reads := Program.ofTokens_eq_ok_iff.mp programRead
  have assignsFilled := reads.assignsFilled
  refine ⟨rfl, Program.isFilled_of_mem_descendants assignsFilled, program,
    programRead, rfl, ?_, ?_⟩
  · exact List.forall_mem_flatMap.mpr reads.isSequence.hasFilledBranches
  · exact List.forall_mem_flatMap.mpr assignsFilled

/-- The operator is unknown and adds no term; the brackets are unknown too and
still make a group. -/
theorem ofTokens_has_no_empty_part_unknown :
    ∃ tokens tree,
      tokens.map Token.text =
          ["if", "a", "<", "b", "then", "x", "=", "c", "%", "<<", "d", "",
            "else", "y", "=", "e", "."] ∧
        Tree.ofTokens tokens = .ok tree ∧
          tree.label = none ∧
            (∀ node ∈ tree.descendants, node.IsFilled) ∧
              ∃ program,
                Program.ofTokens tokens = .ok program ∧
                  (∀ statement ∈ program.preorder,
                    statement.HasFilledBranches) ∧
                    ∀ value ∈ program.values,
                      ∀ part ∈ value.parts, part ≠ [] := by
  have read :
      Tree.ofTokens
          [⟨.keyword .ifWord, "if", .origin⟩, ⟨.identifier, "a", .origin⟩,
            ⟨.comparison, "<", .origin⟩, ⟨.identifier, "b", .origin⟩,
            ⟨.keyword .thenWord, "then", .origin⟩,
            ⟨.identifier, "x", .origin⟩, ⟨.assignment, "=", .origin⟩,
            ⟨.identifier, "c", .origin⟩, ⟨.arithmetic, "%", .origin⟩,
            ⟨.openBracket, "<<", .origin⟩, ⟨.identifier, "d", .origin⟩,
            ⟨.closeBracket, "", .origin⟩,
            ⟨.keyword .elseWord, "else", .origin⟩,
            ⟨.identifier, "y", .origin⟩, ⟨.assignment, "=", .origin⟩,
            ⟨.identifier, "e", .origin⟩, ⟨.delimiter, ".", .origin⟩] =
        .ok
          (.group
            [.group
              [.leaf "if", .group [.leaf "a", .leaf "<", .leaf "b"],
                .leaf "then",
                .group
                  [.leaf "x", .leaf ":=",
                    .group [.leaf "c", .group [.group [.leaf "d"]]]],
                .leaf "else",
                .group [.leaf "y", .leaf ":=", .group [.leaf "e"]]]]) := by
    cbv
  obtain ⟨unlabelled, areFilled, program, programRead, _, branches, values⟩ :=
    ofTokens_has_no_empty_part read
  exact ⟨_, _, rfl, read, unlabelled, areFilled, program, programRead,
    branches, values⟩

/-- Two texts have the same tree exactly if their programs are equal once all
brackets are replaced by parentheses. -/
theorem ofSource_eq_iff_rounded_eq
    {first second : String}
    {firstProgram secondProgram : Program}
    (firstRead : Program.ofSource first = .ok firstProgram)
    (secondRead : Program.ofSource second = .ok secondProgram) :
    (∃ tree,
        Tree.ofSource first = .ok tree ∧ Tree.ofSource second = .ok tree) ↔
      firstProgram.rounded = secondProgram.rounded := by
  have firstSpelled := (Program.isCanonical_of_ofSource firstRead).spelled
  have secondSpelled := (Program.isCanonical_of_ofSource secondRead).spelled
  rw [← Program.tree_eq_iff firstSpelled secondSpelled, ofSource_eq,
    ofSource_eq, firstRead, secondRead]
  constructor
  · rintro ⟨tree, first_eq, second_eq⟩
    exact Except.ok.inj (first_eq.trans second_eq.symm)
  · intro tree_eq
    exact ⟨firstProgram.tree, rfl, congrArg Except.ok tree_eq.symm⟩

/-- The programs differ, since one has parentheses and the other has square
brackets and braces, and their trees agree. -/
theorem ofSource_eq_iff_rounded_eq_families :
    ∃ tree firstProgram secondProgram,
      Program.ofSource "if a<1 then x:=(a(b)) else y:=2;" = .ok firstProgram ∧
        Program.ofSource "if a<1 then x:=[a\x7bb\x7d]; else y:=2;" =
            .ok secondProgram ∧
          firstProgram ≠ secondProgram ∧
            firstProgram.rounded = secondProgram.rounded ∧
              Tree.ofSource "if a<1 then x:=(a(b)) else y:=2;" = .ok tree ∧
                Tree.ofSource "if a<1 then x:=[a\x7bb\x7d]; else y:=2;" =
                  .ok tree := by
  have firstRead :
      Program.ofSource "if a<1 then x:=(a(b)) else y:=2;" =
        .ok
          ⟨[.conditional ⟨.identifier "a", .less, .constant "1"⟩
            [.assignment "x"
              [.group .round
                [.operand (.identifier "a"),
                  .group .round [.operand (.identifier "b")]]]]
            (some [.assignment "y" [.operand (.constant "2")]])]⟩ := by
    cbv
  have secondRead :
      Program.ofSource "if a<1 then x:=[a\x7bb\x7d]; else y:=2;" =
        .ok
          ⟨[.conditional ⟨.identifier "a", .less, .constant "1"⟩
            [.assignment "x"
              [.group .square
                [.operand (.identifier "a"),
                  .group .curly [.operand (.identifier "b")]]]]
            (some [.assignment "y" [.operand (.constant "2")]])]⟩ := by
    cbv
  obtain ⟨tree, firstTree, secondTree⟩ :=
    (ofSource_eq_iff_rounded_eq firstRead secondRead).mpr (by cbv)
  exact ⟨tree, _, _, firstRead, secondRead, by simp, by cbv, firstTree,
    secondTree⟩

/-- Two texts whose trees have the same outline have the same tree. -/
theorem ofSource_eq_of_outline_eq
    {first second : String}
    {firstTree secondTree : Tree}
    (firstRead : Tree.ofSource first = .ok firstTree)
    (secondRead : Tree.ofSource second = .ok secondTree)
    (outline_eq : firstTree.outline = secondTree.outline) :
    firstTree = secondTree := by
  rw [ofSource_eq] at firstRead secondRead
  obtain ⟨firstProgram, firstProgramRead, rfl⟩ := map_eq_ok_iff.mp firstRead
  obtain ⟨secondProgram, secondProgramRead, rfl⟩ := map_eq_ok_iff.mp secondRead
  have firstCanonical := Program.isCanonical_of_ofSource firstProgramRead
  have secondCanonical := Program.isCanonical_of_ofSource secondProgramRead
  rw [Program.tree, Program.tree, group_inj]
  exact eq_of_outline_group_eq (Program.allFilled_of_ofSource firstProgramRead)
    (Program.allFilled_of_ofSource secondProgramRead)
    (Program.isLine_of_mem_labels_tree firstCanonical.spelled)
    (Program.isLine_of_mem_labels_tree secondCanonical.spelled) outline_eq

/-- The operator between the groups is drawn like them, and the outlines agree
although the texts do not. -/
theorem ofSource_eq_of_outline_eq_product :
    ∃ firstTree secondTree,
      Tree.ofSource "x:=(a)*(b);" = .ok firstTree ∧
        Tree.ofSource "x := [a] * \x7bb\x7d;" = .ok secondTree ∧
          firstTree.outline = secondTree.outline ∧
            firstTree = secondTree := by
  have firstRead :
      Tree.ofSource "x:=(a)*(b);" =
        .ok
          (.group
            [.group
              [.leaf "x", .leaf ":=",
                .group
                  [.group [.group [.leaf "a"]], .leaf "*",
                    .group [.group [.leaf "b"]]]]]) := by
    cbv
  have secondRead :
      Tree.ofSource "x := [a] * \x7bb\x7d;" =
        .ok
          (.group
            [.group
              [.leaf "x", .leaf ":=",
                .group
                  [.group [.group [.leaf "a"]], .leaf "*",
                    .group [.group [.leaf "b"]]]]]) := by
    cbv
  exact ⟨_, _, firstRead, secondRead, rfl,
    ofSource_eq_of_outline_eq firstRead secondRead rfl⟩

end Tree

end ConditionalAssignment
