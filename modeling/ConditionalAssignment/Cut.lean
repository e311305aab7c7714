/-!
# Cuts of a list

A cut splits a list at one of its elements into the part before, the element
itself and the part after.  A list is cut at the first or at the last element
that satisfies a test, and the two lemmas on each cut say exactly which one
that is, so nothing else needs to look at how it is found.
-/

namespace ConditionalAssignment

/-- A list split at one of its elements. -/
structure Cut (α : Type) where
  /-- The elements before the chosen one. -/
  before : List α
  /-- The chosen element. -/
  pivot : α
  /-- The elements after the chosen one. -/
  after : List α

namespace Cut

variable {α : Type}

/-- The list that a cut splits. -/
def whole (cut : Cut α) : List α :=
  cut.before ++ cut.pivot :: cut.after

/-- The cut of a list that has one more element in front. -/
def cons (element : α) (cut : Cut α) : Cut α :=
  ⟨element :: cut.before, cut.pivot, cut.after⟩

@[simp] theorem whole_cons (element : α) (cut : Cut α) :
    (cut.cons element).whole = element :: cut.whole :=
  rfl

/-- The part after a cut is shorter than the whole list. -/
theorem length_after_lt (cut : Cut α) :
    cut.after.length < cut.whole.length := by
  simp only [whole, List.length_append, List.length_cons]
  omega

/-- The part before a cut is shorter than the whole list. -/
theorem length_before_lt (cut : Cut α) :
    cut.before.length < cut.whole.length := by
  simp only [whole, List.length_append, List.length_cons]
  omega

/-- The cut at the first element that satisfies a test. -/
def atFirst? (test : α → Bool) : List α → Option (Cut α)
  | [] => none
  | element :: rest =>
      if test element then
        some ⟨[], element, rest⟩
      else
        (atFirst? test rest).map (cons element)

/-- The cut at the last element that satisfies a test. -/
def atLast? (test : α → Bool) : List α → Option (Cut α)
  | [] => none
  | element :: rest =>
      match atLast? test rest with
      | some cut => some (cut.cons element)
      | none => if test element then some ⟨[], element, rest⟩ else none

/-- A list is not cut exactly if no element satisfies the test. -/
theorem atFirst?_eq_none_iff
    {test : α → Bool}
    {list : List α} :
    atFirst? test list = none ↔ ∀ element ∈ list, test element = false := by
  induction list with
  | nil => simp [atFirst?]
  | cons element rest inductionHypothesis =>
      cases satisfied : test element <;>
        simp [atFirst?, satisfied, inductionHypothesis]

/-- A list is not cut exactly if no element satisfies the test. -/
theorem atLast?_eq_none_iff
    {test : α → Bool}
    {list : List α} :
    atLast? test list = none ↔ ∀ element ∈ list, test element = false := by
  induction list with
  | nil => simp [atLast?]
  | cons element rest inductionHypothesis =>
      cases found : atLast? test rest with
      | none =>
          have restFails := inductionHypothesis.mp found
          cases satisfied : test element <;>
            simp [atLast?, found, satisfied]
          exact restFails
      | some cut =>
          have restSucceeds := mt inductionHypothesis.mpr (by simp [found])
          simp only [atLast?, found, reduceCtorEq, List.mem_cons,
            forall_eq_or_imp, false_iff, not_and]
          intro _
          exact restSucceeds

/-- The first cut is at an element that satisfies the test, after elements
that do not. -/
theorem atFirst?_eq_some_iff
    {test : α → Bool}
    {list : List α}
    {cut : Cut α} :
    atFirst? test list = some cut ↔
      list = cut.whole ∧ test cut.pivot = true ∧
        ∀ element ∈ cut.before, test element = false := by
  induction list generalizing cut with
  | nil => simp [atFirst?, whole]
  | cons element rest inductionHypothesis =>
      obtain ⟨before, pivot, after⟩ := cut
      cases satisfied : test element with
      | true =>
          cases before with
          | nil =>
              simp only [atFirst?, satisfied, if_true, whole,
                Option.some.injEq, Cut.mk.injEq, List.nil_append,
                List.cons.injEq, List.not_mem_nil]
              constructor
              · rintro ⟨_, rfl, rfl⟩
                simp [satisfied]
              · rintro ⟨⟨rfl, rfl⟩, _⟩
                simp
          | cons head tail =>
              simp only [atFirst?, satisfied, if_true, whole,
                Option.some.injEq, Cut.mk.injEq, List.cons_append,
                List.cons.injEq, List.mem_cons]
              constructor
              · rintro ⟨impossible, _⟩
                cases impossible
              · rintro ⟨⟨rfl, _⟩, _, beforeFails⟩
                simp [satisfied] at beforeFails
      | false =>
          cases before with
          | nil =>
              simp only [atFirst?, satisfied, Bool.false_eq_true, if_false,
                whole, Option.map_eq_some_iff, cons, Cut.mk.injEq,
                List.nil_append, List.cons.injEq]
              constructor
              · rintro ⟨_, _, impossible, _⟩
                cases impossible
              · rintro ⟨⟨rfl, _⟩, pivotSucceeds, _⟩
                simp [satisfied] at pivotSucceeds
          | cons head tail =>
              have restCut := @inductionHypothesis ⟨tail, pivot, after⟩
              simp only [whole] at restCut
              simp only [atFirst?, satisfied, Bool.false_eq_true, if_false,
                whole, Option.map_eq_some_iff, cons, Cut.mk.injEq,
                List.cons_append, List.cons.injEq, List.mem_cons,
                forall_eq_or_imp]
              constructor
              · rintro ⟨⟨_, _, _⟩, found, ⟨rfl, rfl⟩, rfl, rfl⟩
                have ⟨rest_eq, pivotSucceeds, beforeFails⟩ :=
                  restCut.mp found
                exact ⟨⟨rfl, rest_eq⟩, pivotSucceeds, satisfied, beforeFails⟩
              · rintro ⟨⟨rfl, rest_eq⟩, pivotSucceeds, _, beforeFails⟩
                exact ⟨⟨tail, pivot, after⟩,
                  restCut.mpr ⟨rest_eq, pivotSucceeds, beforeFails⟩,
                  ⟨rfl, rfl⟩, rfl, rfl⟩

/-- The last cut is at an element that satisfies the test, before elements
that do not. -/
theorem atLast?_eq_some_iff
    {test : α → Bool}
    {list : List α}
    {cut : Cut α} :
    atLast? test list = some cut ↔
      list = cut.whole ∧ test cut.pivot = true ∧
        ∀ element ∈ cut.after, test element = false := by
  induction list generalizing cut with
  | nil => simp [atLast?, whole]
  | cons element rest inductionHypothesis =>
      obtain ⟨before, pivot, after⟩ := cut
      cases found : atLast? test rest with
      | none =>
          have restFails := atLast?_eq_none_iff.mp found
          simp only [atLast?, found]
          cases before with
          | nil =>
              simp only [whole, List.nil_append, List.cons.injEq]
              split
              · rename_i satisfied
                simp only [Option.some.injEq, Cut.mk.injEq]
                constructor
                · rintro ⟨_, rfl, rfl⟩
                  exact ⟨⟨rfl, rfl⟩, satisfied, restFails⟩
                · rintro ⟨⟨rfl, rfl⟩, _⟩
                  simp
              · rename_i unsatisfied
                simp only [reduceCtorEq, false_iff]
                rintro ⟨⟨rfl, _⟩, pivotSucceeds, _⟩
                exact unsatisfied pivotSucceeds
          | cons head tail =>
              simp only [whole, List.cons_append, List.cons.injEq]
              constructor
              · intro chosen
                split at chosen <;> simp at chosen
              · rintro ⟨⟨_, rfl⟩, pivotSucceeds, _⟩
                have pivotFails := restFails pivot (by simp)
                simp [pivotSucceeds] at pivotFails
      | some restCut =>
          have ⟨rest_eq, restPivotSucceeds, restAfterFails⟩ :=
            inductionHypothesis.mp found
          simp only [atLast?, found, Option.some.injEq, cons, Cut.mk.injEq]
          cases before with
          | nil =>
              simp only [whole, List.nil_append, List.cons.injEq]
              constructor
              · rintro ⟨impossible, _⟩
                cases impossible
              · rintro ⟨⟨_, rfl⟩, _, afterFails⟩
                have pivotFails :=
                  afterFails restCut.pivot (by simp [rest_eq, whole])
                simp [restPivotSucceeds] at pivotFails
          | cons head tail =>
              have tailCut := @inductionHypothesis ⟨tail, pivot, after⟩
              simp only [found, Option.some.injEq, whole] at tailCut
              simp only [whole, List.cons_append, List.cons.injEq]
              constructor
              · rintro ⟨⟨rfl, rfl⟩, rfl, rfl⟩
                exact ⟨⟨rfl, rest_eq⟩, restPivotSucceeds, restAfterFails⟩
              · rintro ⟨⟨rfl, tail_eq⟩, pivotSucceeds, afterFails⟩
                have cut_eq :=
                  tailCut.mpr ⟨tail_eq, pivotSucceeds, afterFails⟩
                subst cut_eq
                simp

/-- A list has only one cut at the first element that satisfies a test. -/
theorem eq_of_before
    {test : α → Bool}
    {left right : Cut α}
    (whole_eq : left.whole = right.whole)
    (leftPivot : test left.pivot = true)
    (leftBefore : ∀ element ∈ left.before, test element = false)
    (rightPivot : test right.pivot = true)
    (rightBefore : ∀ element ∈ right.before, test element = false) :
    left = right := by
  have leftFound : atFirst? test left.whole = some left :=
    atFirst?_eq_some_iff.mpr ⟨rfl, leftPivot, leftBefore⟩
  have rightFound : atFirst? test left.whole = some right :=
    atFirst?_eq_some_iff.mpr ⟨whole_eq, rightPivot, rightBefore⟩
  exact Option.some.inj (leftFound.symm.trans rightFound)

/-- A list has only one cut at the last element that satisfies a test. -/
theorem eq_of_after
    {test : α → Bool}
    {left right : Cut α}
    (whole_eq : left.whole = right.whole)
    (leftPivot : test left.pivot = true)
    (leftAfter : ∀ element ∈ left.after, test element = false)
    (rightPivot : test right.pivot = true)
    (rightAfter : ∀ element ∈ right.after, test element = false) :
    left = right := by
  have leftFound : atLast? test left.whole = some left :=
    atLast?_eq_some_iff.mpr ⟨rfl, leftPivot, leftAfter⟩
  have rightFound : atLast? test left.whole = some right :=
    atLast?_eq_some_iff.mpr ⟨whole_eq, rightPivot, rightAfter⟩
  exact Option.some.inj (leftFound.symm.trans rightFound)

end Cut

end ConditionalAssignment
