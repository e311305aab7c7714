import ConditionalAssignment.Proofs.Bracket.Fitting
import ConditionalAssignment.Proofs.Outcome
import Mathlib

/-!
# The bracket to blame

The check passes exactly for the texts with balanced brackets.  While it runs,
the text already read leaves some brackets open: behind each of them only
balanced text follows up to the next one.  Every character keeps this true, so
where the check stops it is known what the text before it looks like.  A closing
bracket is blamed with the text before it, and an opening one as the first
bracket of the whole text without a partner.
-/

namespace ConditionalAssignment

theorem isBracket_opening (bracket : Bracket) :
    isBracket bracket.opening = true := by
  cases bracket <;> rfl

theorem isBracket_closing (bracket : Bracket) :
    isBracket bracket.closing = true := by
  cases bracket <;> rfl

theorem isBracket_eq_false_of_eq_none
    {character : Char}
    (noOpening : Bracket.ofOpening? character = none)
    (noClosing : Bracket.ofClosing? character = none) :
    isBracket character = false := by
  unfold isBracket
  rw [noOpening, noClosing]
  rfl

@[simp] theorem bracketsOf_cons_opening
    (bracket : Bracket)
    (rest : List Char) :
    bracketsOf (bracket.opening :: rest) =
      bracket.opening :: bracketsOf rest :=
  List.filter_cons_of_pos (isBracket_opening bracket)

@[simp] theorem bracketsOf_cons_closing
    (bracket : Bracket)
    (rest : List Char) :
    bracketsOf (bracket.closing :: rest) =
      bracket.closing :: bracketsOf rest :=
  List.filter_cons_of_pos (isBracket_closing bracket)

/-! ## Partners -/

/-- A bracket between others has a partner: a bracket of its family on the other
side of balanced ones. -/
inductive HasPartner : List Char → Char → List Char → Prop
  | ahead {before inner after : List Char} {bracket : Bracket} :
      Balanced inner →
        HasPartner before bracket.opening (inner ++ bracket.closing :: after)
  | behind {before inner after : List Char} {bracket : Bracket} :
      Balanced inner →
        HasPartner (before ++ bracket.opening :: inner) bracket.closing after

theorem HasPartner.behind_front
    {inner after : List Char}
    {bracket : Bracket}
    (innerBalanced : Balanced inner) :
    HasPartner (bracket.opening :: inner) bracket.closing after := by
  rw [← List.nil_append (bracket.opening :: inner)]
  exact .behind innerBalanced

/-- A partner stays one when more stands on both sides. -/
theorem HasPartner.widen
    {before after : List Char}
    {character : Char}
    (hasPartner : HasPartner before character after)
    (front back : List Char) :
    HasPartner (front ++ before) character (after ++ back) := by
  cases hasPartner with
  | ahead innerBalanced =>
      rw [List.append_assoc, List.cons_append]
      exact .ahead innerBalanced
  | behind innerBalanced =>
      rw [← List.append_assoc]
      exact .behind innerBalanced

/-- All of balanced brackets have partners among themselves. -/
theorem Balanced.hasPartner
    {brackets before after : List Char}
    {character : Char}
    (balanced : Balanced brackets)
    (brackets_eq : brackets = before ++ character :: after) :
    HasPartner before character after := by
  induction balanced generalizing before after with
  | nil => simp at brackets_eq
  | @group bracket inner rest innerBalanced _ innerHypothesis
      restHypothesis =>
      obtain ⟨rfl, opening_eq⟩ | ⟨before, rfl, others_eq⟩ :=
        List.cons_eq_append_iff.mp brackets_eq
      · cases opening_eq
        exact .ahead innerBalanced
      · obtain ⟨between, rfl, closing_eq⟩ | ⟨between, rfl, closing_eq⟩ :=
          List.append_eq_append_iff.mp others_eq
        · obtain ⟨rfl, closing_eq⟩ | ⟨between, rfl, rest_eq⟩ :=
            List.cons_eq_append_iff.mp closing_eq
          · cases closing_eq
            rw [List.append_nil]
            exact .behind_front innerBalanced
          · have restPartner := restHypothesis rest_eq
            simpa using restPartner.widen
              (bracket.opening :: (inner ++ [bracket.closing])) []
        · obtain ⟨rfl, closing_eq⟩ | ⟨between, rfl, rest_eq⟩ :=
            List.cons_eq_append_iff.mp closing_eq
          · cases closing_eq
            rw [List.append_nil] at innerBalanced
            exact .behind_front innerBalanced
          · have innerPartner := innerHypothesis rfl
            subst rest_eq
            simpa using innerPartner.widen [bracket.opening]
              (bracket.closing :: rest)

/-! ## Brackets left open -/

/-- The text leaves some brackets open, innermost first: only balanced text lies
between them and at both ends. -/
inductive LeavesOpen : List Char → List OpenBracket → Prop
  | closed {text : List Char} :
      Balanced (bracketsOf text) → LeavesOpen text []
  | opened
      {before inner : List Char}
      {bracket : Bracket}
      {outer : List OpenBracket} :
      LeavesOpen before outer →
        Balanced (bracketsOf inner) →
          LeavesOpen (before ++ bracket.opening :: inner)
            (⟨bracket, Position.origin.after before⟩ :: outer)

namespace LeavesOpen

variable {text : List Char} {opened outer : List OpenBracket}

theorem balanced (leaves : LeavesOpen text []) :
    Balanced (bracketsOf text) := by
  cases leaves with
  | closed isBalanced => exact isBalanced

/-- Balanced text opens and closes nothing. -/
theorem append
    (leaves : LeavesOpen text opened)
    {behind : List Char}
    (isBalanced : Balanced (bracketsOf behind)) :
    LeavesOpen (text ++ behind) opened := by
  cases leaves with
  | closed textBalanced =>
      apply closed
      rw [bracketsOf_append]
      exact textBalanced.append isBalanced
  | @opened _ inner _ _ beforeLeaves innerBalanced =>
      have wholeBalanced : Balanced (bracketsOf (inner ++ behind)) := by
        rw [bracketsOf_append]
        exact innerBalanced.append isBalanced
      rw [List.append_assoc, List.cons_append]
      exact .opened beforeLeaves wholeBalanced

theorem append_opening
    (leaves : LeavesOpen text outer)
    (bracket : Bracket) :
    LeavesOpen (text ++ [bracket.opening])
      (⟨bracket, Position.origin.after text⟩ :: outer) :=
  .opened leaves .nil

/-- A closing bracket closes the innermost open one of its family. -/
theorem append_closing
    {innermost : OpenBracket}
    (leaves : LeavesOpen text (innermost :: outer)) :
    LeavesOpen (text ++ [innermost.bracket.closing]) outer := by
  cases leaves with
  | @opened _ inner bracket _ beforeLeaves innerBalanced =>
      rw [List.append_assoc, List.cons_append]
      apply beforeLeaves.append
      rw [bracketsOf_cons_opening, bracketsOf_append, bracketsOf_cons_closing]
      exact .group innerBalanced .nil

theorem append_other
    (leaves : LeavesOpen text opened)
    {character : Char}
    (noBracket : isBracket character = false) :
    LeavesOpen (text ++ [character]) opened := by
  apply leaves.append
  rw [bracketsOf_eq_nil (by simpa using noBracket)]
  exact .nil

/-- The innermost open bracket is the last one without a partner. -/
theorem eq_append_of_cons
    {innermost : OpenBracket}
    (leaves : LeavesOpen text (innermost :: outer)) :
    ∃ before inner,
      bracketsOf text = before ++ innermost.bracket.opening :: inner ∧
        Balanced inner := by
  cases leaves with
  | @opened before inner bracket _ _ innerBalanced =>
      refine ⟨bracketsOf before, bracketsOf inner, ?_, innerBalanced⟩
      rw [bracketsOf_append, bracketsOf_cons_opening]

/-- Closing what is open, innermost first, makes the text balanced. -/
theorem balanced_append
    (leaves : LeavesOpen text opened)
    {middle : List Char}
    (middleBalanced : Balanced middle) :
    Balanced
      (bracketsOf text ++
        (middle ++ opened.map fun waiting => waiting.bracket.closing)) := by
  induction leaves generalizing middle with
  | closed isBalanced =>
      rw [List.map_nil, List.append_nil]
      exact isBalanced.append middleBalanced
  | @opened _ inner bracket _ _ innerBalanced inductionHypothesis =>
      have groupBalanced :
          Balanced (bracket.opening ::
            ((bracketsOf inner ++ middle) ++ bracket.closing :: [])) :=
        .group (innerBalanced.append middleBalanced) .nil
      simpa using inductionHypothesis groupBalanced

/-- What is read of a text can always be completed to balanced brackets. -/
theorem exists_balanced
    (leaves : LeavesOpen text opened)
    {before : List Char}
    (isPrefix : before <+: text) :
    ∃ rest, Balanced (bracketsOf before ++ rest) := by
  obtain ⟨behind, rfl⟩ := isPrefix
  have completed := leaves.balanced_append .nil
  rw [bracketsOf_append, List.append_assoc] at completed
  exact ⟨_, completed⟩

/-- Before the oldest open bracket the text is balanced, and behind it no
closing bracket is left over. -/
theorem eq_append_of_getLast?
    {oldest : OpenBracket}
    (leaves : LeavesOpen text opened)
    (isOldest : opened.getLast? = some oldest) :
    ∃ before after,
      text = before ++ oldest.bracket.opening :: after ∧
        oldest.position = Position.origin.after before ∧
          Balanced (bracketsOf before) ∧
            ∃ left, Balance.openAfter [] (bracketsOf after) = some left := by
  induction leaves with
  | closed _ => cases isOldest
  | @opened before inner bracket outer beforeLeaves innerBalanced
      inductionHypothesis =>
      cases outer with
      | nil =>
          cases isOldest
          have closed := Balance.openAfter_of_balanced innerBalanced [] []
          rw [List.append_nil] at closed
          exact ⟨before, inner, rfl, rfl, beforeLeaves.balanced, [], closed⟩
      | cons next outer =>
          rw [List.getLast?_cons_cons] at isOldest
          obtain ⟨front, after, rfl, position_eq, frontBalanced, left,
            afterOpen⟩ := inductionHypothesis isOldest
          refine ⟨front, after ++ bracket.opening :: inner, ?_, position_eq,
            frontBalanced, bracket :: left, ?_⟩
          · simp
          · have closed :=
              Balance.openAfter_of_balanced innerBalanced (bracket :: left) []
            rw [List.append_nil] at closed
            rw [bracketsOf_append, bracketsOf_cons_opening,
              Balance.openAfter_append, afterOpen, Option.bind_some,
              Balance.openAfter_opening, closed]
            rfl

end LeavesOpen

/-- An opening bracket has no partner if no closing bracket behind it is left
over. -/
theorem not_hasPartner_opening
    {before after : List Char}
    {bracket : Bracket}
    {left : List Bracket}
    (afterOpen : Balance.openAfter [] after = some left) :
    ¬ HasPartner before bracket.opening after := by
  intro hasPartner
  generalize character_eq : bracket.opening = character at hasPartner
  cases hasPartner with
  | ahead innerBalanced =>
      rw [Balance.openAfter_of_balanced innerBalanced,
        Balance.openAfter_closing_eq_some_iff] at afterOpen
      obtain ⟨_, impossible, _⟩ := afterOpen
      cases impossible
  | @behind _ _ _ family _ =>
      have impossible := congrArg Bracket.ofOpening? character_eq
      simp at impossible

/-! ## Blame -/

/-- What is wrong with a text at one of its characters, given the text before
and after it. -/
def BracketFault.Blames
    (before : List Char)
    (blamed : Char)
    (after : List Char) : BracketFault → Prop
  | .unexpectedClose close =>
      blamed = close ∧ (∃ bracket : Bracket, close = bracket.closing) ∧
        Balanced (bracketsOf before)
  | .mismatched opening close =>
      blamed = close ∧
        (∃ opened closed : Bracket,
          opening = opened.opening ∧ close = closed.closing ∧
            opened ≠ closed) ∧
          (∃ outer inner,
            bracketsOf before = outer ++ opening :: inner ∧ Balanced inner) ∧
            ∃ rest, Balanced (bracketsOf before ++ rest)
  | .unclosed opening =>
      blamed = opening ∧ (∃ bracket : Bracket, opening = bracket.opening) ∧
        Balanced (bracketsOf before) ∧
          (∀ part,
            part <+: before ++ blamed :: after →
              ∃ rest, Balanced (bracketsOf part ++ rest)) ∧
            ¬ HasPartner (bracketsOf before) opening (bracketsOf after) ∧
              ∀ earlier character between,
                bracketsOf before = earlier ++ character :: between →
                  HasPartner earlier character
                    (between ++ opening :: bracketsOf after)

/-- The error names the place of a bracket of the text and blames it rightly. -/
def BracketError.Blames (text : List Char) (error : BracketError) : Prop :=
  ∃ before blamed after,
    text = before ++ blamed :: after ∧
      error.position = Position.origin.after before ∧
        error.fault.Blames before blamed after

namespace Balance

theorem blames_unexpectedClose
    {before rest : List Char}
    {bracket : Bracket}
    (leaves : LeavesOpen before []) :
    BracketError.Blames (before ++ bracket.closing :: rest)
      ⟨.unexpectedClose bracket.closing, Position.origin.after before⟩ :=
  ⟨before, bracket.closing, rest, rfl, rfl, rfl, ⟨bracket, rfl⟩,
    leaves.balanced⟩

theorem blames_mismatched
    {before rest : List Char}
    {innermost : OpenBracket}
    {outer : List OpenBracket}
    {bracket : Bracket}
    (leaves : LeavesOpen before (innermost :: outer))
    (differs : innermost.bracket ≠ bracket) :
    BracketError.Blames (before ++ bracket.closing :: rest)
      ⟨.mismatched innermost.bracket.opening bracket.closing,
        Position.origin.after before⟩ :=
  ⟨before, bracket.closing, rest, rfl, rfl, rfl,
    ⟨innermost.bracket, bracket, rfl, rfl, differs⟩, leaves.eq_append_of_cons,
    leaves.exists_balanced (List.prefix_refl before)⟩

theorem blames_unclosed
    {text : List Char}
    {opened : List OpenBracket}
    {oldest : OpenBracket}
    (leaves : LeavesOpen text opened)
    (isOldest : opened.getLast? = some oldest) :
    BracketError.Blames text
      ⟨.unclosed oldest.bracket.opening, oldest.position⟩ := by
  obtain ⟨before, after, rfl, position_eq, beforeBalanced, left, afterOpen⟩ :=
    leaves.eq_append_of_getLast? isOldest
  refine ⟨before, _, after, rfl, position_eq, rfl, ⟨_, rfl⟩, beforeBalanced,
    ?_, not_hasPartner_opening afterOpen, ?_⟩
  · intro part isPrefix
    exact leaves.exists_balanced isPrefix
  · intro earlier character between before_eq
    have hasPartner := beforeBalanced.hasPartner before_eq
    simpa using hasPartner.widen [] (oldest.bracket.opening :: bracketsOf after)

/-- The check goes on from what was left open, and ends with nothing open or
with a bracket to blame. -/
theorem checkFrom_leaves
    {before rest : List Char}
    {opened : List OpenBracket}
    (leaves : LeavesOpen before opened) :
    match checkFrom opened (Position.origin.after before) rest with
    | .ok () => LeavesOpen (before ++ rest) []
    | .error error => error.Blames (before ++ rest) := by
  induction rest generalizing before opened with
  | nil =>
      rw [List.append_nil, checkFrom]
      cases isOldest : opened.getLast? with
      | none =>
          rw [List.getLast?_eq_none_iff] at isOldest
          subst isOldest
          exact leaves
      | some oldest => exact blames_unclosed leaves isOldest
  | cons character rest inductionHypothesis =>
      have goesOn
          {following : List OpenBracket}
          (followingLeaves : LeavesOpen (before ++ [character]) following) :=
        inductionHypothesis followingLeaves
      simp only [Position.after_append, Position.after_cons,
        Position.after_nil, List.append_assoc, List.singleton_append] at goesOn
      rw [checkFrom.eq_def]
      dsimp only
      cases opening : Bracket.ofOpening? character with
      | some bracket =>
          obtain rfl := Bracket.ofOpening?_eq_some_iff.mp opening
          exact goesOn (leaves.append_opening bracket)
      | none =>
          cases closing : Bracket.ofClosing? character with
          | none =>
              have noBracket := isBracket_eq_false_of_eq_none opening closing
              exact goesOn (leaves.append_other noBracket)
          | some bracket =>
              obtain rfl := Bracket.ofClosing?_eq_some_iff.mp closing
              cases opened with
              | nil => exact blames_unexpectedClose leaves
              | cons innermost outer =>
                  by_cases fits : innermost.bracket = bracket
                  · subst fits
                    simp only [if_true]
                    exact goesOn leaves.append_closing
                  · simp only [if_neg fits]
                    exact blames_mismatched leaves fits

theorem check_leaves (source : String) :
    match check source with
    | .ok () => LeavesOpen source.toList []
    | .error error => error.Blames source.toList := by
  have start : LeavesOpen [] [] := .closed .nil
  exact checkFrom_leaves start

/-- The texts that pass the check are those with balanced brackets. -/
theorem check_eq_ok_iff {source : String} :
    check source = .ok () ↔ Balanced (bracketsOf source.toList) := by
  constructor
  · intro passed
    have leaves := check_leaves source
    rw [passed] at leaves
    exact leaves.balanced
  · exact check_of_balanced

/-- The check accepts balanced brackets and blames a bracket of every other
text. -/
theorem check_decides_balance (source : String) :
    (check source = .ok () ↔ Balanced (bracketsOf source.toList)) ∧
      ∀ error,
        check source = .error error →
          ∃ before blamed after,
            source.toList = before ++ blamed :: after ∧
              error.position.offset = (String.ofList before).utf8ByteSize ∧
                error.fault.Blames before blamed after := by
  refine ⟨check_eq_ok_iff, ?_⟩
  intro error failed
  have blames := check_leaves source
  rw [failed] at blames
  obtain ⟨before, blamed, after, source_eq, position_eq, blames⟩ := blames
  refine ⟨before, blamed, after, source_eq, ?_, blames⟩
  rw [position_eq, Position.offset_after]
  exact Nat.zero_add _

/-- One text for each way to fail.  The last one leaves two brackets open, and
the older one is to blame. -/
theorem check_decides_balance_faults :
    ∀ failure ∈
      [("é)", (⟨.unexpectedClose ')', ⟨2, 1, 2⟩⟩ : BracketError)),
        ("(é)[a)", ⟨.mismatched '[' ')', ⟨6, 1, 6⟩⟩),
        ("()[(a)(b", ⟨.unclosed '[', ⟨2, 1, 3⟩⟩)],
      check failure.1 = .error failure.2 ∧
        ∃ before blamed after,
          failure.1.toList = before ++ blamed :: after ∧
            failure.2.position.offset =
                (String.ofList before).utf8ByteSize ∧
              failure.2.fault.Blames before blamed after := by
  have unexpected :
      check "é)" = .error ⟨.unexpectedClose ')', ⟨2, 1, 2⟩⟩ := by
    cbv
  have mismatched :
      check "(é)[a)" = .error ⟨.mismatched '[' ')', ⟨6, 1, 6⟩⟩ := by
    cbv
  have unclosed : check "()[(a)(b" = .error ⟨.unclosed '[', ⟨2, 1, 3⟩⟩ := by
    cbv
  rw [List.forall_mem_cons, List.forall_mem_cons, List.forall_mem_singleton]
  exact
    ⟨⟨unexpected, (check_decides_balance _).2 _ unexpected⟩,
      ⟨mismatched, (check_decides_balance _).2 _ mismatched⟩,
      ⟨unclosed, (check_decides_balance _).2 _ unclosed⟩⟩

end Balance

end ConditionalAssignment
