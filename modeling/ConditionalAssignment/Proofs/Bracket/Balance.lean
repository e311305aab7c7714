import ConditionalAssignment.Bracket.Balance

/-!
# Balanced brackets

A text is balanced if its brackets can be generated by nesting and
concatenation, every closing bracket being of the family of its partner.  The
check keeps the open brackets with their places; whether it passes depends only
on their families and only on the brackets of the text.
-/

namespace ConditionalAssignment

/-- The character opens or closes a group. -/
def isBracket (character : Char) : Bool :=
  (Bracket.ofOpening? character).isSome || (Bracket.ofClosing? character).isSome

/-- The brackets of a text, in order. -/
def bracketsOf (text : List Char) : List Char :=
  text.filter isBracket

@[simp] theorem bracketsOf_append (first second : List Char) :
    bracketsOf (first ++ second) = bracketsOf first ++ bracketsOf second :=
  List.filter_append first second

theorem bracketsOf_eq_nil
    {text : List Char}
    (noBracket : ∀ character ∈ text, isBracket character = false) :
    bracketsOf text = [] := by
  apply List.filter_eq_nil_iff.mpr
  intro character member
  rw [noBracket character member]
  exact Bool.false_ne_true

/-- Every bracket has a partner of its own family. -/
inductive Balanced : List Char → Prop
  | nil : Balanced []
  | group {bracket : Bracket} {inner rest : List Char} :
      Balanced inner → Balanced rest →
        Balanced (bracket.opening :: (inner ++ bracket.closing :: rest))

theorem Balanced.append
    {first second : List Char}
    (firstBalanced : Balanced first)
    (secondBalanced : Balanced second) :
    Balanced (first ++ second) := by
  induction firstBalanced with
  | nil => exact secondBalanced
  | group innerBalanced _ _ restHypothesis =>
      rw [List.cons_append, List.append_assoc, List.cons_append]
      exact .group innerBalanced restHypothesis

namespace Balance

/-- The families that a text leaves open, innermost first, unless a closing
bracket of the text fits nothing. -/
def openAfter : List Bracket → List Char → Option (List Bracket)
  | opened, [] => some opened
  | opened, character :: rest =>
      match Bracket.ofOpening? character with
      | some bracket => openAfter (bracket :: opened) rest
      | none =>
          match Bracket.ofClosing? character, opened with
          | none, _ => openAfter opened rest
          | some _, [] => none
          | some bracket, innermost :: outer =>
              if innermost = bracket then openAfter outer rest else none

@[simp] theorem openAfter_nil (opened : List Bracket) :
    openAfter opened [] = some opened :=
  rfl

@[simp] theorem openAfter_opening
    (opened : List Bracket)
    (bracket : Bracket)
    (rest : List Char) :
    openAfter opened (bracket.opening :: rest) =
      openAfter (bracket :: opened) rest := by
  rw [openAfter.eq_def]
  simp only [Bracket.ofOpening?_opening]

@[simp] theorem openAfter_closing
    (opened : List Bracket)
    (bracket : Bracket)
    (rest : List Char) :
    openAfter (bracket :: opened) (bracket.closing :: rest) =
      openAfter opened rest := by
  rw [openAfter.eq_def]
  simp only [Bracket.ofOpening?_closing, Bracket.ofClosing?_closing, if_true]

theorem openAfter_of_not_isBracket
    (opened : List Bracket)
    {character : Char}
    (noBracket : isBracket character = false)
    (rest : List Char) :
    openAfter opened (character :: rest) = openAfter opened rest := by
  unfold isBracket at noBracket
  rw [Bool.or_eq_false_iff, Option.isSome_eq_false_iff,
    Option.isSome_eq_false_iff, Option.isNone_iff_eq_none,
    Option.isNone_iff_eq_none] at noBracket
  rw [openAfter.eq_def]
  simp only [noBracket.1, noBracket.2]

/-- The check passes exactly if no family is left open and none was closed by
another. -/
theorem checkFrom_eq_ok_iff
    (opened : List OpenBracket)
    (position : Position)
    (text : List Char) :
    checkFrom opened position text = .ok () ↔
      openAfter (opened.map OpenBracket.bracket) text = some [] := by
  induction text generalizing opened position with
  | nil =>
      rcases List.eq_nil_or_concat opened with rfl | ⟨inner, oldest, rfl⟩
      · simp [checkFrom]
      · simp [checkFrom]
  | cons character rest inductionHypothesis =>
      rw [checkFrom.eq_def, openAfter.eq_def]
      dsimp only
      cases Bracket.ofOpening? character with
      | some bracket => exact inductionHypothesis _ _
      | none =>
          cases Bracket.ofClosing? character with
          | none => exact inductionHypothesis _ _
          | some bracket =>
              cases opened with
              | nil => simp
              | cons innermost outer =>
                  by_cases fits : innermost.bracket = bracket
                  · simp only [fits, if_true, List.map_cons]
                    exact inductionHypothesis _ _
                  · simp [fits]

/-- Only the brackets of a text count. -/
theorem openAfter_bracketsOf (opened : List Bracket) (text : List Char) :
    openAfter opened (bracketsOf text) = openAfter opened text := by
  unfold bracketsOf
  induction text generalizing opened with
  | nil => rfl
  | cons character rest inductionHypothesis =>
      cases verdict : isBracket character with
      | false =>
          rw [List.filter_cons_of_neg (by simp [verdict]),
            openAfter_of_not_isBracket opened verdict, inductionHypothesis]
      | true =>
          rw [List.filter_cons_of_pos verdict, openAfter.eq_def,
            openAfter.eq_def opened (character :: rest)]
          simp only [inductionHypothesis]

/-- A balanced text leaves open what was open before it. -/
theorem openAfter_of_balanced
    {text : List Char}
    (balanced : Balanced text)
    (opened : List Bracket)
    (rest : List Char) :
    openAfter opened (text ++ rest) = openAfter opened rest := by
  induction balanced generalizing opened rest with
  | nil => rfl
  | group _ _ innerHypothesis restHypothesis =>
      rw [List.cons_append, List.append_assoc, List.cons_append,
        openAfter_opening, innerHypothesis, openAfter_closing, restHypothesis]

/-- The check passes for a text with balanced brackets. -/
theorem check_of_balanced
    {source : String}
    (balanced : Balanced (bracketsOf source.toList)) :
    check source = .ok () := by
  have closed := openAfter_of_balanced balanced [] []
  rw [List.append_nil, openAfter_bracketsOf] at closed
  exact (checkFrom_eq_ok_iff [] _ _).mpr closed

end Balance

end ConditionalAssignment
