import ConditionalAssignment.Proofs.Indexed.Reader

/-!
# Indices of cuts

A cut and an index name the same place of a list: the index is the length of the
part before the cut.  So an index that comes from a cut is in range, and so are
the bounds of its parts, because the parts make up the whole.
-/

namespace ConditionalAssignment.Indexed

variable {α : Type}

/-! ## Access -/

theorem item_eq
    {list before after : List α}
    {element : α}
    {index : Nat}
    (whole_eq : list = before ++ element :: after)
    (index_eq : index = before.length) :
    item list index = .value element := by
  subst whole_eq index_eq
  simp [item]

theorem item_zero (element : α) (rest : List α) :
    item (element :: rest) 0 = .value element :=
  rfl

/-- What stands at an index splits the list there. -/
theorem exists_of_getElem?
    {list : List α}
    {index : Nat}
    {element : α}
    (atIndex : list[index]? = some element) :
    ∃ front behind,
      list = front ++ element :: behind ∧ index = front.length := by
  obtain ⟨inRange, rfl⟩ := List.getElem?_eq_some_iff.mp atIndex
  refine ⟨list.take index, list.drop (index + 1), ?_, ?_⟩
  · rw [← List.drop_eq_getElem_cons inRange, List.take_append_drop]
  · rw [List.length_take, Nat.min_eq_left (Nat.le_of_lt inRange)]

theorem drop_behind (front behind : List α) (element : α) :
    (front ++ element :: behind).drop (front.length + 1) = behind := by
  rw [List.drop_length_add_append, List.drop_succ_cons, List.drop_zero]

theorem slice_eq
    {list before middle after : List α}
    {start stop : Nat}
    (whole_eq : list = before ++ (middle ++ after))
    (start_eq : start = before.length)
    (stop_eq : stop = before.length + middle.length) :
    slice list start stop = .value middle := by
  subst whole_eq start_eq stop_eq
  have inRange :
      before.length ≤ before.length + middle.length ∧
        before.length + middle.length ≤
          (before ++ (middle ++ after)).length := by
    simp only [List.length_append]
    omega
  unfold slice
  rw [if_pos inRange, ← List.append_assoc, ← List.length_append,
    List.take_left, List.drop_left]

theorem slice_from (front behind : List α) :
    slice (front ++ behind) front.length (front ++ behind).length =
      .value behind := by
  apply @slice_eq _ _ front behind []
  · rw [List.append_nil]
  · rfl
  · rw [List.length_append]

theorem slice_behind (front behind : List α) (element : α) :
    slice (front ++ element :: behind) (front.length + 1)
        (front ++ element :: behind).length =
      .value behind := by
  have behind_eq := slice_from (front ++ [element]) behind
  rw [List.append_assoc, List.singleton_append, List.length_append,
    List.length_singleton] at behind_eq
  exact behind_eq

theorem slice_to (front behind : List α) :
    slice (front ++ behind) 0 front.length = .value front :=
  @slice_eq _ _ [] front behind _ _ rfl rfl (Nat.zero_add _).symm

/-! ## Searches -/

/-- The first index is where the list is cut first. -/
theorem findIdx?_eq (test : α → Bool) (list : List α) :
    list.findIdx? test =
      (Cut.atFirst? test list).map fun cut => cut.before.length := by
  induction list with
  | nil => rfl
  | cons element rest inductionHypothesis =>
      rw [List.findIdx?_cons, Cut.atFirst?, inductionHypothesis]
      split
      · rfl
      · rw [Option.map_map, Option.map_map]
        rfl

theorem findIdx?_eq_some
    {test : α → Bool}
    {list before after : List α}
    {pivot : α}
    (whole_eq : list = before ++ pivot :: after)
    (isPivot : test pivot = true)
    (beforeFails : ∀ element ∈ before, test element = false) :
    list.findIdx? test = some before.length := by
  have found : Cut.atFirst? test list = some ⟨before, pivot, after⟩ :=
    Cut.atFirst?_eq_some_iff.mpr ⟨whole_eq, isPivot, beforeFails⟩
  rw [findIdx?_eq, found]
  rfl

/-- The last index is where the list is cut last. -/
theorem lastIndex?_eq (test : α → Bool) (list : List α) :
    lastIndex? test list =
      (Cut.atLast? test list).map fun cut => cut.before.length := by
  induction list with
  | nil => rfl
  | cons element rest inductionHypothesis =>
      rw [lastIndex?, Cut.atLast?, inductionHypothesis]
      cases Cut.atLast? test rest with
      | some cut => rfl
      | none =>
          dsimp only [Option.map_none]
          split <;> rfl

theorem lastIndex?_eq_some
    {test : α → Bool}
    {list before after : List α}
    {pivot : α}
    (whole_eq : list = before ++ pivot :: after)
    (isPivot : test pivot = true)
    (afterFails : ∀ element ∈ after, test element = false) :
    lastIndex? test list = some before.length := by
  have found : Cut.atLast? test list = some ⟨before, pivot, after⟩ :=
    Cut.atLast?_eq_some_iff.mpr ⟨whole_eq, isPivot, afterFails⟩
  rw [lastIndex?_eq, found]
  rfl

theorem lastIndex?_eq_none
    {test : α → Bool}
    {list : List α}
    (fails : ∀ element ∈ list, test element = false) :
    lastIndex? test list = none := by
  rw [lastIndex?_eq, Cut.atLast?_eq_none_iff.mpr fails]
  rfl

end ConditionalAssignment.Indexed
