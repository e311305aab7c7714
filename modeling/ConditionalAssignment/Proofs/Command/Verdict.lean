import ConditionalAssignment.Command
import ConditionalAssignment.Cut
import ConditionalAssignment.Proofs.Source.Streaming

/-!
# Verdicts and complaints

A source that is read gets a verdict, a line that counts its statements and its
nodes.  Every other source gets complaints.  A verdict can be told from a
complaint by its end, and the path and both counts can be read off it, whatever
the path is.
-/

namespace ConditionalAssignment

/-! ## Numbers at the end of a text -/

/-- A number at the end of a text can be told from what stands before it. -/
theorem append_repr_inj
    {before other : String}
    {mark : Char}
    (noDigit : mark.isDigit = false)
    {number found : Nat}
    (whole_eq :
      before ++ String.singleton mark ++ number.repr =
        other ++ String.singleton mark ++ found.repr) :
    before = other ∧ number = found := by
  have digits (value : Nat) :
      ∀ character ∈ value.repr.toList, (!character.isDigit) = false := by
    intro character member
    rw [Nat.toList_repr] at member
    rw [Nat.isDigit_of_mem_toDigits (by decide) (by decide) member]
    rfl
  have isMark : (!mark.isDigit) = true := by rw [noDigit]; rfl
  have cut_eq :
      (⟨before.toList, mark, number.repr.toList⟩ : Cut Char) =
        ⟨other.toList, mark, found.repr.toList⟩ := by
    refine Cut.eq_of_after ?_ isMark (digits number) isMark (digits found)
    have toList_eq := congrArg String.toList whole_eq
    simpa [Cut.whole] using toList_eq
  rw [Cut.mk.injEq, String.toList_inj, String.toList_inj,
    Nat.repr_inj] at cut_eq
  exact ⟨cut_eq.1, cut_eq.2.2⟩

namespace Command

/-! ## Verdicts -/

/-- The line that says that a source is read, and how much it holds. -/
def verdict (path : String) (statements nodes : Nat) : String :=
  s!"{path}: valid ({statements} statement(s), {nodes} node(s))\n"

theorem verdict_eq (path : String) (statements nodes : Nat) :
    verdict path statements nodes =
      path ++ ": valid (" ++ statements.repr ++ " statement(s), " ++
        nodes.repr ++ " node(s))\n" :=
  rfl

/-- A text has only one verdict at its end. -/
theorem verdict_inj
    {path before : String}
    {statements nodes otherStatements otherNodes : Nat}
    (whole_eq :
      before ++ verdict path statements nodes =
        verdict path otherStatements otherNodes) :
    before = "" ∧ statements = otherStatements ∧ nodes = otherNodes := by
  have opening_eq : ": valid (" = ": valid " ++ String.singleton '(' := rfl
  have between_eq :
      " statement(s), " = " statement(s)," ++ String.singleton ' ' :=
    rfl
  -- The text is read from its end, where the path cannot be in the way.
  rw [verdict_eq, verdict_eq, opening_eq, between_eq] at whole_eq
  simp only [← String.append_assoc] at whole_eq
  rw [String.append_left_inj] at whole_eq
  obtain ⟨front_eq, nodes_eq⟩ := append_repr_inj (by decide) whole_eq
  rw [String.append_left_inj] at front_eq
  obtain ⟨path_eq, statements_eq⟩ := append_repr_inj (by decide) front_eq
  rw [String.append_left_inj] at path_eq
  have before_eq : before ++ path = "" ++ path := by
    rw [path_eq, String.empty_append]
  exact ⟨(String.append_left_inj path).mp before_eq, statements_eq, nodes_eq⟩

end Command

/-! ## Complaints -/

/-- The last character but one is no closing bracket, as it is in a verdict. -/
def IsComplaint (text : String) : Prop :=
  ∃ front left right, text.toList = front ++ [left, right] ∧ left ≠ ')'

theorem IsComplaint.prepend
    {text : String}
    (isComplaint : IsComplaint text)
    (before : String) :
    IsComplaint (before ++ text) := by
  obtain ⟨front, left, right, text_eq, noClose⟩ := isComplaint
  refine ⟨before.toList ++ front, left, right, ?_, noClose⟩
  rw [String.toList_append, text_eq, List.append_assoc]

/-- A place ends in its offset and a closing bracket. -/
theorem Position.isComplaint_describe (position : Position) :
    IsComplaint position.describe := by
  have offsetEnds : IsComplaint (position.offset.repr ++ ")") := by
    obtain ⟨front, last, digits_eq⟩ :=
      (List.eq_nil_or_concat (Nat.toDigits 10 position.offset)).resolve_left
        Nat.toDigits_ne_nil
    refine ⟨front, last, ')', ?_, ?_⟩
    · rw [String.toList_append, Nat.toList_repr, digits_eq]
      simp
    · rintro rfl
      have member : ')' ∈ Nat.toDigits 10 position.offset := by
        rw [digits_eq]
        simp
      have isDigit :=
        Nat.isDigit_of_mem_toDigits (by decide) (by decide) member
      revert isDigit
      decide
  have describe_eq :
      position.describe =
        "line " ++ position.line.repr ++ ", column " ++ position.column.repr ++
          " (offset " ++ (position.offset.repr ++ ")") := by
    rw [← String.append_assoc]
    rfl
  rw [describe_eq]
  exact offsetEnds.prepend _

theorem ReadFailure.isComplaint_message (failure : ReadFailure) :
    IsComplaint failure.message := by
  cases failure with
  | missing =>
      exact ⟨"No such file or directory (os error ".toList, '2', ')', by decide,
        by decide⟩
  | notText =>
      exact ⟨"stream did not contain valid UTF".toList, '-', '8', by decide,
        by decide⟩

theorem LexError.isComplaint_message (error : LexError) :
    IsComplaint error.message :=
  error.position.isComplaint_describe.prepend (error.fault.message ++ " at ")

/-- Several lexical errors end as the last of them does. -/
theorem LexError.isComplaint_report
    {errors : List LexError}
    (nonempty : errors ≠ []) :
    IsComplaint (report errors) := by
  unfold report
  induction errors with
  | nil => exact absurd rfl nonempty
  | cons first others inductionHypothesis =>
      cases others with
      | nil => simpa using first.isComplaint_message
      | cons second others =>
          rw [List.map_cons, List.map_cons, String.intercalate_cons_cons,
            ← List.map_cons]
          exact (inductionHypothesis (by simp)).prepend _

namespace ParseError

/-- A lexical error of the grammar lists the errors of the text. -/
theorem isComplaint_lexical
    {errors : List LexError}
    (nonempty : errors ≠ [])
    (position : Option Position) :
    IsComplaint (message ⟨.lexical errors, position⟩) := by
  have message_eq :
      message ⟨.lexical errors, position⟩ =
        "lexical analysis found errors:\n" ++ LexError.report errors := by
    cases position <;> rfl
  rw [message_eq]
  exact (LexError.isComplaint_report nonempty).prepend _

/-- An error that blames a token ends in its place. -/
theorem Blames.isComplaint_message
    {tokens : List Token}
    {error : ParseError}
    (blames : error.Blames tokens) :
    IsComplaint error.message := by
  have notLexical : error.fault.isLexical = false := by
    cases fault_eq : error.fault with
    | lexical errors => exact absurd fault_eq (blames.not_lexical errors)
    | _ => rfl
  obtain ⟨token, _, position_eq, _⟩ := blames
  have message_eq :
      error.message =
        error.fault.message ++ " at " ++ token.position.describe := by
    simp only [message, position_eq, notLexical]
    rfl
  rw [message_eq]
  exact token.position.isComplaint_describe.prepend _

end ParseError

/-- The items of a text that cannot be read give a complaint. -/
theorem Tree.isComplaint_of_ofItems
    {source : String}
    {error : ParseError}
    (failed : Tree.ofItems (LexItem.ofSource source) = .error error) :
    IsComplaint error.message := by
  rw [ofItems_ofSource] at failed
  cases lexed : Token.ofSource source with
  | error errors =>
      rw [lexed] at failed
      cases failed
      obtain ⟨first, others, rfl⟩ := Token.exists_cons_of_ofSource lexed
      exact ParseError.isComplaint_lexical (by simp) _
  | ok tokens =>
      rw [lexed] at failed
      have blames :=
        Program.ofTokens_blames tokens _ (map_eq_error_iff.mp failed)
      exact blames.isComplaint_message

/-- No complaint ends in a verdict. -/
theorem Command.complaint_ne_verdict
    {message : String}
    (isComplaint : IsComplaint message)
    (front path before : String)
    (statements nodes : Nat) :
    front ++ (Report.ofFailure path message).diagnostics ≠
      before ++ verdict path statements nodes := by
  obtain ⟨text, left, right, message_eq, noClose⟩ := isComplaint
  have complaint_eq :
      (front ++ (Report.ofFailure path message).diagnostics).toList =
        (front ++ path ++ ": ").toList ++ text ++ [left, right, '\n'] := by
    have diagnostics_eq :
        (Report.ofFailure path message).diagnostics =
          path ++ ": " ++ message ++ "\n" :=
      rfl
    simp [diagnostics_eq, message_eq]
  have line_eq :
      (before ++ verdict path statements nodes).toList =
        (before ++ path ++ ": valid (" ++ statements.repr ++
          " statement(s), " ++ nodes.repr ++ " node(s").toList ++
            [')', ')', '\n'] := by
    simp [verdict_eq]
  intro whole_eq
  have toList_eq := congrArg String.toList whole_eq
  rw [complaint_eq, line_eq] at toList_eq
  have ending_eq := (List.append_inj' toList_eq rfl).2
  rw [List.cons.injEq] at ending_eq
  exact noClose ending_eq.1

end ConditionalAssignment
