import ConditionalAssignment.Command
import ConditionalAssignment.Proofs.Source.Reading
import Mathlib

/-!
# Round trips

The canonical text of a program that was read from some text is read as the
same program, so writing the layout twice changes nothing.  It consists of the
words of that text, except for the redundant delimiters.  The programs that can
be read at all are the canonical ones.
-/

namespace ConditionalAssignment

namespace Command

theorem onText_layout
    {source : String}
    {program : Program}
    (read : Program.ofSource source = .ok program)
    (path : String) :
    layout.onText path source = .ofOutput program.layout := by
  unfold onText
  rw [read]

end Command

namespace Program

/-- Laying out a program that was read preserves it, and laying out its layout
changes nothing. -/
theorem layout_reads_back
    {source : String}
    {program : Program}
    (read : Program.ofSource source = .ok program) :
    Program.ofSource program.layout = .ok program ∧
      ∀ path,
        (Command.layout.onText path source).output = program.layout ∧
          Command.layout.onText path
              (Command.layout.onText path source).output =
            Command.layout.onText path source := by
  have readBack := (isCanonical_of_ofSource read).ofSource_layout
  refine ⟨readBack, ?_⟩
  intro path
  rw [Command.onText_layout read]
  constructor
  · rfl
  · exact Command.onText_layout readBack path

/-- The delimiters before both words `else` are not written back. -/
theorem layout_reads_back_nested :
    ∃ program,
      Program.ofSource
            "if a<b then if c>d then x:=[y]; else x:=1; else x:=2;" =
          .ok program ∧
        program.layout =
          "if a < b then if c > d then x := [y] else x := 1 else x := 2;\n" ∧
          Program.ofSource program.layout = .ok program := by
  have read :
      Program.ofSource
          "if a<b then if c>d then x:=[y]; else x:=1; else x:=2;" =
        .ok
          ⟨[.conditional ⟨.identifier "a", .less, .identifier "b"⟩
            [.conditional ⟨.identifier "c", .greater, .identifier "d"⟩
              [.assignment "x" [.group .square [.operand (.identifier "y")]]]
              (some [.assignment "x" [.operand (.constant "1")]])]
            (some [.assignment "x" [.operand (.constant "2")]])]⟩ := by
    cbv
  refine ⟨_, read, ?_, (layout_reads_back read).1⟩
  cbv

/-- A program is read from some text exactly if it is canonical. -/
theorem exists_source_iff_isCanonical (program : Program) :
    (∃ source, Program.ofSource source = .ok program) ↔
      program.IsCanonical := by
  constructor
  · rintro ⟨source, read⟩
    exact isCanonical_of_ofSource read
  · intro isCanonical
    exact ⟨program.layout, isCanonical.ofSource_layout⟩

/-- The layout of a program that was read has the words of the text that it was
read from, without the redundant delimiters. -/
theorem layout_keeps_words
    {source : String}
    {program : Program}
    (read : Program.ofSource source = .ok program) :
    ∃ tokens printed,
      Token.ofSource source = .ok tokens ∧
        Token.ofSource program.layout = .ok printed ∧
          printed.map Token.word =
            Word.dropRedundant (tokens.map Token.word) := by
  obtain ⟨tokens, lexed, tokensRead⟩ := ofSource_eq_ok_iff.mp read
  have reads := ofTokens_eq_ok_iff.mp tokensRead
  have sourceValid := Token.isValid_of_ofSource lexed
  have valid :=
    program.isValid_words_iff.mpr (reads.isCanonical sourceValid).spelled
  obtain ⟨printed, printedLexed, words_eq⟩ :=
    Token.ofSource_of_spells (spells_layout valid)
  refine ⟨tokens, printed, lexed, printedLexed, ?_⟩
  rw [words_eq, reads.dropRedundant_eq sourceValid]

/-- The inner delimiter stays and the one before `else` goes. -/
theorem layout_keeps_words_choice :
    ∃ program tokens printed,
      Program.ofSource "if a<b then x:=1; y:=2; else z:=3;" = .ok program ∧
        Token.ofSource "if a<b then x:=1; y:=2; else z:=3;" = .ok tokens ∧
          Token.ofSource program.layout = .ok printed ∧
            printed.map Token.word =
              Word.dropRedundant (tokens.map Token.word) := by
  have read :
      Program.ofSource "if a<b then x:=1; y:=2; else z:=3;" =
        .ok
          ⟨[.conditional ⟨.identifier "a", .less, .identifier "b"⟩
            [.assignment "x" [.operand (.constant "1")],
              .assignment "y" [.operand (.constant "2")]]
            (some [.assignment "z" [.operand (.constant "3")]])]⟩ := by
    cbv
  obtain ⟨tokens, printed, lexed, printedLexed, words_eq⟩ :=
    layout_keeps_words read
  exact ⟨_, tokens, printed, read, lexed, printedLexed, words_eq⟩

end Program

end ConditionalAssignment
