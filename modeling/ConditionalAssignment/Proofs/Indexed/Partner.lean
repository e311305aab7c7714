import ConditionalAssignment.Proofs.Indexed.Expression
import Mathlib

/-!
# The partner of an opening bracket

The reader of a group looks for the bracket that closes it by counting, up at an
opening bracket and down at a closing one, and all families count alike.  What
it finds has a description without a running count: it is the first index behind
the opening bracket through which the tokens close as many brackets as they
open.  What lies between the two closes all that it opens and nothing else.
Only when the partner is found are the texts of the two compared.
-/

namespace ConditionalAssignment

/-! ## Counting brackets -/

namespace Token

/-- How many of the tokens are of a kind. -/
def count (kind : TokenKind) (tokens : List Token) : Nat :=
  (tokens.map Token.kind).count kind

@[simp] theorem count_nil (kind : TokenKind) : count kind [] = 0 :=
  rfl

theorem count_singleton (kind : TokenKind) (token : Token) :
    count kind [token] = if token.kind = kind then 1 else 0 := by
  simp [count, List.count_singleton]

theorem count_append (kind : TokenKind) (first second : List Token) :
    count kind (first ++ second) = count kind first + count kind second := by
  simp [count]

theorem count_cons (kind : TokenKind) (token : Token) (rest : List Token) :
    count kind (token :: rest) = count kind [token] + count kind rest :=
  count_append kind [token] rest

/-- The tokens never close more brackets than they have opened and than were
open before them. -/
def ClosesWithin (depth : Nat) (tokens : List Token) : Prop :=
  ∀ front, front <+: tokens →
    count .closeBracket front ≤ depth + count .openBracket front

theorem closesWithin_nil (depth : Nat) : ClosesWithin depth [] := by
  intro front isFront
  rw [List.prefix_nil.mp isFront]
  simp

/-- A token takes the number of open brackets to that of the tokens behind
it. -/
theorem ClosesWithin.cons
    {depth inner : Nat}
    {token : Token}
    {rest : List Token}
    (step :
      depth + count .openBracket [token] = inner + count .closeBracket [token])
    (restWithin : ClosesWithin inner rest) :
    ClosesWithin depth (token :: rest) := by
  intro front isFront
  rcases List.prefix_cons_iff.mp isFront with rfl | ⟨others, rfl, isRestFront⟩
  · simp
  · have othersWithin := restWithin others isRestFront
    rw [count_cons, count_cons .openBracket]
    omega

/-- The tokens close all brackets that they open, and no others. -/
structure IsEnclosed (tokens : List Token) : Prop where
  /-- Every front opens at least as many brackets as it closes. -/
  front : ∀ front, front <+: tokens →
    count .closeBracket front ≤ count .openBracket front
  /-- The whole opens as many brackets as it closes. -/
  whole : count .openBracket tokens = count .closeBracket tokens

/-- From one index through a later one, the tokens close as many brackets as
they open. -/
def IsLevel (tokens : List Token) (start stop : Nat) : Prop :=
  start < stop ∧ stop < tokens.length ∧
    count .closeBracket ((tokens.take (stop + 1)).drop start) =
      count .openBracket ((tokens.take (stop + 1)).drop start)

instance (tokens : List Token) (start stop : Nat) :
    Decidable (IsLevel tokens start stop) :=
  inferInstanceAs (Decidable (_ ∧ _ ∧ _))

/-- Tokens are level nowhere if they are not at any index that they have. -/
theorem forall_not_isLevel_iff {tokens : List Token} {start : Nat} :
    (∀ stop, ¬ IsLevel tokens start stop) ↔
      ∀ stop < tokens.length, ¬ IsLevel tokens start stop := by
  constructor
  · intro isNowhereLevel stop _
    exact isNowhereLevel stop
  · intro isNowhereLevel stop isLevel
    exact isNowhereLevel stop isLevel.2.1 isLevel

/-- Tokens are level for the first time where they were not before. -/
theorem IsLevel.isLeast
    {tokens : List Token}
    {start stop : Nat}
    (isLevel : IsLevel tokens start stop)
    (notBefore : ∀ earlier < stop, ¬ IsLevel tokens start earlier) :
    IsLeast {stop | IsLevel tokens start stop} stop := by
  refine ⟨isLevel, ?_⟩
  intro other otherLevel
  by_contra earlier
  exact notBefore other (Nat.lt_of_not_le earlier) otherLevel

/-- From an opening bracket on, tokens are level where those behind it close one
bracket more than they open. -/
theorem isLevel_behind_iff
    {opening : Token}
    (isOpening : opening.kind = .openBracket)
    (front rest : List Token)
    (between : Nat) :
    IsLevel (front ++ opening :: rest) front.length
        (front.length + 1 + between) ↔
      between < rest.length ∧
        count .closeBracket (rest.take (between + 1)) =
          count .openBracket (rest.take (between + 1)) + 1 := by
  have part_eq :
      ((front ++ opening :: rest).take (front.length + 1 + between + 1)).drop
          front.length =
        opening :: rest.take (between + 1) := by
    have length_eq :
        front.length + 1 + between + 1 - front.length = between + 1 + 1 := by
      omega
    rw [List.drop_take, List.drop_left, length_eq, List.take_succ_cons]
  unfold IsLevel
  rw [part_eq, count_cons, count_cons .openBracket, count_singleton,
    count_singleton, isOpening]
  simp only [List.length_append, List.length_cons, reduceCtorEq, if_true,
    if_false]
  omega

end Token

/-! ## What counting finds -/

namespace Cut

open Token

/-- What a search for a closing bracket tells of the tokens, given the number of
brackets opened before them. -/
def TellsClose
    (depth : Nat)
    (tokens : List Token) : Option (Cut Token) → Prop
  | none => ClosesWithin depth tokens
  | some cut =>
      ClosesWithin depth cut.before ∧
        count .closeBracket cut.before = depth + count .openBracket cut.before

/-- A search that goes on behind a token tells of it what it tells of the
tokens behind. -/
theorem TellsClose.map_cons
    {depth inner : Nat}
    {token : Token}
    {rest : List Token}
    {found : Option (Cut Token)}
    (step :
      depth + count .openBracket [token] = inner + count .closeBracket [token])
    (restTells : TellsClose inner rest found) :
    TellsClose depth (token :: rest) (found.map (cons token)) := by
  cases found with
  | none => exact restTells.cons step
  | some cut =>
      obtain ⟨beforeWithin, before_eq⟩ := restTells
      refine ⟨beforeWithin.cons step, ?_⟩
      rw [cons, count_cons, count_cons .openBracket]
      omega

theorem tellsClose_atClose? (depth : Nat) (tokens : List Token) :
    TellsClose depth tokens (atClose? depth tokens) := by
  fun_induction atClose? depth tokens with
  | case1 depth => exact closesWithin_nil depth
  | case2 depth token rest isOpening inductionHypothesis =>
      apply inductionHypothesis.map_cons
      simp [count_singleton, isOpening]
  | case3 token rest isClosing => exact ⟨closesWithin_nil 0, rfl⟩
  | case4 token rest outer isClosing inductionHypothesis =>
      apply inductionHypothesis.map_cons
      simp [count_singleton, isClosing]
  | case5 depth token rest isNoOpening notZero notDeeper inductionHypothesis =>
      have isNoClosing : token.kind ≠ .closeBracket := by
        intro isClosing
        cases depth with
        | zero => exact notZero isClosing rfl
        | succ outer => exact notDeeper outer isClosing rfl
      apply inductionHypothesis.map_cons
      rw [count_singleton, count_singleton, if_neg isNoOpening,
        if_neg isNoClosing]

/-- What stands before the closing bracket of a group is enclosed. -/
theorem isEnclosed_of_atClose?
    {tokens : List Token}
    {cut : Cut Token}
    (found : atClose? 0 tokens = some cut) :
    IsEnclosed cut.before := by
  have tells := tellsClose_atClose? 0 tokens
  rw [found] at tells
  obtain ⟨beforeWithin, before_eq⟩ := tells
  rw [Nat.zero_add] at before_eq
  refine ⟨?_, before_eq.symm⟩
  intro front isFront
  have frontWithin := beforeWithin front isFront
  rwa [Nat.zero_add] at frontWithin

end Cut

/-! ## The index that is found -/

namespace Indexed

open Token

section

variable
  {opening : Token}
  {rest : List Token}
  {cut : Cut Token}
  (isOpening : opening.kind = .openBracket)
  (front : List Token)

include isOpening

/-- Where no bracket closes the group, the tokens are level nowhere. -/
theorem not_isLevel_of_atClose?
    (notFound : Cut.atClose? 0 rest = none)
    (stop : Nat) :
    ¬ IsLevel (front ++ opening :: rest) front.length stop := by
  intro isLevel
  obtain ⟨between, rfl⟩ := Nat.exists_eq_add_of_le isLevel.1
  obtain ⟨_, level_eq⟩ := (isLevel_behind_iff isOpening _ _ _).mp isLevel
  have restWithin := Cut.tellsClose_atClose? 0 rest
  rw [notFound] at restWithin
  have takenWithin := restWithin _ (List.take_prefix (between + 1) rest)
  omega

/-- Where a bracket closes the group, the tokens are level for the first
time. -/
theorem isLeast_of_atClose?
    (found : Cut.atClose? 0 rest = some cut) :
    IsLeast {stop | IsLevel (front ++ opening :: rest) front.length stop}
      (front.length + 1 + cut.before.length) := by
  have isEnclosed := Cut.isEnclosed_of_atClose? found
  have isClosing := Cut.kind_pivot_of_atClose? found
  obtain rfl := Cut.whole_of_atClose? found
  apply IsLevel.isLeast
  · apply (isLevel_behind_iff isOpening _ _ _).mpr
    have taken_eq :
        cut.whole.take (cut.before.length + 1) = cut.before ++ [cut.pivot] := by
      rw [Cut.whole, List.take_length_add_append]
      rfl
    rw [taken_eq, count_append, count_append, count_singleton, count_singleton,
      isClosing, isEnclosed.whole]
    exact ⟨cut.length_before_lt, rfl⟩
  · -- An earlier index would end a front of the inside of the group.
    intro stop earlier isLevel
    obtain ⟨between, rfl⟩ := Nat.exists_eq_add_of_le isLevel.1
    obtain ⟨_, level_eq⟩ := (isLevel_behind_iff isOpening _ _ _).mp isLevel
    have taken_eq :
        cut.whole.take (between + 1) = cut.before.take (between + 1) := by
      rw [Cut.whole, List.take_append_of_le_length (by omega)]
    have takenWithin :=
      isEnclosed.front _ (List.take_prefix (between + 1) cut.before)
    rw [taken_eq] at level_eq
    omega

theorem matchingClose_of_atClose?_eq_none
    (notFound : Cut.atClose? 0 rest = none) :
    matchingClose (front ++ opening :: rest) front.length =
      .error (.blame opening (.unclosedBracket opening.text)) := by
  rw [matchingClose_eq isOpening, Expression.closeGroup, notFound]
  rfl

theorem matchingClose_of_atClose?
    (found : Cut.atClose? 0 rest = some cut) :
    matchingClose (front ++ opening :: rest) front.length =
      if cut.pivot.text.toList.head? = Expression.closingOf opening then
        .value (front.length + 1 + cut.before.length)
      else
        .error
          (.blame cut.pivot
            (.mismatchedBracket opening.text cut.pivot.text)) := by
  rw [matchingClose_eq isOpening, Expression.closeGroup, found]
  dsimp only
  split <;> rfl

end

/-- The search for the end of a group finds the partner of its opening bracket:
the first index behind it through which the tokens close as many brackets as
they open.  If there is no such index, the opening bracket is blamed as
unclosed; if the text there is not what closes its family, that token is blamed.
What lies between the two is enclosed.  The reader of groups cuts the tokens at
the very index that is found. -/
theorem matchingClose_finds_partner
    {tokens : List Token}
    {index : Nat}
    {opening : Token}
    (atIndex : tokens[index]? = some opening)
    (isOpening : opening.kind = .openBracket) :
    ((∀ stop, ¬ IsLevel tokens index stop) →
        matchingClose tokens index =
          .error (.blame opening (.unclosedBracket opening.text))) ∧
      (∀ close,
        IsLeast {stop | IsLevel tokens index stop} close →
          ∃ closing,
            tokens[close]? = some closing ∧
              closing.kind = .closeBracket ∧
                IsEnclosed ((tokens.take close).drop (index + 1)) ∧
                  matchingClose tokens index =
                    if closing.text.toList.head? =
                        Expression.closingOf opening then
                      .value close
                    else
                      .error
                        (.blame closing
                          (.mismatchedBracket opening.text closing.text))) ∧
        matchingClose tokens index =
          ofExcept
            ((Expression.closeGroup opening (tokens.drop (index + 1))).map
              fun cut => index + 1 + cut.before.length) := by
  obtain ⟨front, rest, rfl, rfl⟩ := exists_of_getElem? atIndex
  refine ⟨?_, ?_, ?_⟩
  · intro isNowhereLevel
    cases found : Cut.atClose? 0 rest with
    | none => exact matchingClose_of_atClose?_eq_none isOpening front found
    | some cut =>
        have isLevel := (isLeast_of_atClose? isOpening front found).1
        exact absurd isLevel (isNowhereLevel _)
  · intro close isLeast
    cases found : Cut.atClose? 0 rest with
    | none =>
        have isNowhereLevel := not_isLevel_of_atClose? isOpening front found
        exact absurd isLeast.1 (isNowhereLevel close)
    | some cut =>
        obtain rfl :=
          isLeast.unique (isLeast_of_atClose? isOpening front found)
        have isClosing := Cut.kind_pivot_of_atClose? found
        have isEnclosed := Cut.isEnclosed_of_atClose? found
        have read := matchingClose_of_atClose? isOpening front found
        obtain rfl := Cut.whole_of_atClose? found
        refine ⟨cut.pivot, ?_, isClosing, ?_, read⟩
        · rw [← List.getElem?_drop, drop_behind, Cut.whole,
            List.getElem?_append_right (Nat.le_refl _), Nat.sub_self,
            List.getElem?_cons_zero]
        · rwa [List.drop_take, drop_behind, Nat.add_sub_cancel_left, Cut.whole,
            List.take_left]
  · rw [matchingClose_eq isOpening, drop_behind]

/-- The first bracket is never closed, the second is closed by one of another
family, and the third by its own behind another group. -/
theorem matchingClose_finds_partner_families :
    ∃ tokens round square outer wrong right,
      Token.ofSource "([a)+(b[c])" = .ok tokens ∧
        (tokens[0]? = some round ∧
          (∀ stop, ¬ IsLevel tokens 0 stop) ∧
            matchingClose tokens 0 =
              .error (.blame round (.unclosedBracket "("))) ∧
          (tokens[1]? = some square ∧ tokens[3]? = some wrong ∧
            IsLeast {stop | IsLevel tokens 1 stop} 3 ∧
              matchingClose tokens 1 =
                .error (.blame wrong (.mismatchedBracket "[" ")"))) ∧
            tokens[5]? = some outer ∧ tokens[10]? = some right ∧
              IsLeast {stop | IsLevel tokens 5 stop} 10 ∧
                matchingClose tokens 5 = .value 10 := by
  have lexed :
      Token.ofSource "([a)+(b[c])" =
        .ok
          [⟨.openBracket, "(", ⟨0, 1, 1⟩⟩, ⟨.openBracket, "[", ⟨1, 1, 2⟩⟩,
            ⟨.identifier, "a", ⟨2, 1, 3⟩⟩, ⟨.closeBracket, ")", ⟨3, 1, 4⟩⟩,
            ⟨.arithmetic, "+", ⟨4, 1, 5⟩⟩, ⟨.openBracket, "(", ⟨5, 1, 6⟩⟩,
            ⟨.identifier, "b", ⟨6, 1, 7⟩⟩, ⟨.openBracket, "[", ⟨7, 1, 8⟩⟩,
            ⟨.identifier, "c", ⟨8, 1, 9⟩⟩, ⟨.closeBracket, "]", ⟨9, 1, 10⟩⟩,
            ⟨.closeBracket, ")", ⟨10, 1, 11⟩⟩] := by
    cbv
  refine ⟨_, _, _, _, _, _, lexed, ⟨rfl, ?_⟩, ⟨rfl, rfl, ?_⟩, rfl, rfl, ?_⟩
  · refine (and_iff_left_of_imp ?_).mpr ?_
    · exact (matchingClose_finds_partner rfl rfl).1
    · exact forall_not_isLevel_iff.mpr (by decide)
  · refine (and_iff_left_of_imp ?_).mpr ?_
    · intro isLeast
      obtain ⟨closing, isClosing, _, _, read⟩ :=
        (matchingClose_finds_partner rfl rfl).2.1 _ isLeast
      cases isClosing
      rwa [if_neg (by decide)] at read
    · exact IsLevel.isLeast (by decide) (by decide)
  · refine (and_iff_left_of_imp ?_).mpr ?_
    · intro isLeast
      obtain ⟨closing, isClosing, _, _, read⟩ :=
        (matchingClose_finds_partner rfl rfl).2.1 _ isLeast
      cases isClosing
      rwa [if_pos (by decide)] at read
    · exact IsLevel.isLeast (by decide) (by decide)

end Indexed

end ConditionalAssignment
