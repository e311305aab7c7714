/-!
# Lines

A text that is printed line by line is counted by its line feeds.  Parts
without a line feed can be put together to a line, and lines that are each
closed by one are counted right.
-/

namespace ConditionalAssignment

/-- The text holds no line feed. -/
def IsLine (text : String) : Prop :=
  '\n' ∉ text.toList

instance (text : String) : Decidable (IsLine text) :=
  inferInstanceAs (Decidable ('\n' ∉ text.toList))

/-- The number of lines of a text, whose last line may lack a line feed. -/
def lineCount (text : String) : Nat :=
  match text.toList.getLast? with
  | none => 0
  | some last =>
      if last = '\n' then
        text.toList.count '\n'
      else
        text.toList.count '\n' + 1

@[simp] theorem isLine_append {first second : String} :
    IsLine (first ++ second) ↔ IsLine first ∧ IsLine second := by
  simp [IsLine]

@[simp] theorem isLine_singleton {character : Char} :
    IsLine (String.singleton character) ↔ character ≠ '\n' := by
  simp [IsLine, eq_comm]

/-- Lines with a line between them form a line. -/
theorem isLine_intercalate
    {separator : String}
    {parts : List String}
    (isSeparator : IsLine separator)
    (areLines : ∀ part ∈ parts, IsLine part) :
    IsLine (separator.intercalate parts) := by
  induction parts with
  | nil => simp [IsLine]
  | cons first others inductionHypothesis =>
      rw [List.forall_mem_cons] at areLines
      have othersLine := inductionHypothesis areLines.2
      cases others with
      | nil => simpa using areLines.1
      | cons second others =>
          rw [String.intercalate_cons_cons]
          simp only [isLine_append]
          exact ⟨⟨areLines.1, isSeparator⟩, othersLine⟩

/-- Lines that are each closed by a line feed are as many lines. -/
theorem lineCount_join
    {lines : List String}
    (areLines : ∀ line ∈ lines, IsLine line) :
    lineCount (String.join (lines.map (· ++ "\n"))) = lines.length := by
  have toList_eq :
      (String.join (lines.map (· ++ "\n"))).toList =
        lines.flatMap fun line => line.toList ++ ['\n'] := by
    rw [String.toList_join, List.flatMap_map]
    simp
  have count_eq :
      (lines.flatMap fun line => line.toList ++ ['\n']).count '\n' =
        lines.length := by
    clear toList_eq
    induction lines with
    | nil => rfl
    | cons first others inductionHypothesis =>
        rw [List.forall_mem_cons] at areLines
        rw [List.flatMap_cons, List.count_append, List.count_append,
          List.count_eq_zero.mpr areLines.1, inductionHypothesis areLines.2]
        simp [Nat.add_comm]
  unfold lineCount
  rw [toList_eq, count_eq]
  obtain rfl | ⟨front, last, rfl⟩ := List.eq_nil_or_concat lines
  · rfl
  · simp

end ConditionalAssignment
