/-!
# Outcomes

A computation ends in a value or in an error.  A sequence of computations gives
a value exactly if every step does, and its error is the error of one step, so
what is known of the errors of the steps is known of the error of the whole.
-/

namespace ConditionalAssignment

variable {ε α β : Type}

theorem bind_eq_ok_iff
    {first : Except ε α}
    {next : α → Except ε β}
    {value : β} :
    (first >>= next) = .ok value ↔
      ∃ found, first = .ok found ∧ next found = .ok value := by
  cases first with
  | error error =>
      constructor
      · intro impossible
        cases impossible
      · rintro ⟨_, impossible, _⟩
        cases impossible
  | ok found =>
      constructor
      · intro continued
        exact ⟨found, rfl, continued⟩
      · rintro ⟨_, found_eq, continued⟩
        cases found_eq
        exact continued

theorem map_eq_ok_iff
    {outcome : Except ε α}
    {change : α → β}
    {value : β} :
    outcome.map change = .ok value ↔
      ∃ found, outcome = .ok found ∧ change found = value := by
  cases outcome with
  | error error => simp [Except.map]
  | ok found => simp [Except.map]

theorem map_map
    {γ : Type}
    (outcome : Except ε α)
    (first : α → β)
    (second : β → γ) :
    (outcome.map first).map second =
      outcome.map fun value => second (first value) := by
  cases outcome with
  | error error => rfl
  | ok value => rfl

theorem map_append_ok_nil (list : List α) :
    (Except.ok [] : Except ε (List α)).map (list ++ ·) = .ok list :=
  congrArg Except.ok (List.append_nil list)

theorem bind_eq_error_iff
    {first : Except ε α}
    {next : α → Except ε β}
    {error : ε} :
    (first >>= next) = .error error ↔
      first = .error error ∨
        ∃ found, first = .ok found ∧ next found = .error error := by
  cases first with
  | error firstError =>
      constructor
      · intro failed
        cases failed
        exact Or.inl rfl
      · rintro (failed | ⟨_, impossible, _⟩)
        · cases failed
          rfl
        · cases impossible
  | ok found =>
      constructor
      · intro failed
        exact Or.inr ⟨found, rfl, failed⟩
      · rintro (impossible | ⟨_, found_eq, failed⟩)
        · cases impossible
        · cases found_eq
          exact failed

theorem mapError_eq_ok_iff
    {outcome : Except ε α}
    {change : ε → β}
    {value : α} :
    outcome.mapError change = .ok value ↔ outcome = .ok value := by
  cases outcome with
  | error error =>
      constructor
      · intro impossible
        cases impossible
      · intro impossible
        cases impossible
  | ok found =>
      constructor
      · intro found_eq
        cases found_eq
        rfl
      · intro found_eq
        cases found_eq
        rfl

theorem mapError_eq_error_iff
    {outcome : Except ε α}
    {change : ε → β}
    {error : β} :
    outcome.mapError change = .error error ↔
      ∃ found, outcome = .error found ∧ change found = error := by
  cases outcome with
  | error found =>
      constructor
      · intro failed
        cases failed
        exact ⟨found, rfl, rfl⟩
      · rintro ⟨_, found_eq, rfl⟩
        cases found_eq
        rfl
  | ok value =>
      constructor
      · intro impossible
        cases impossible
      · rintro ⟨_, impossible, _⟩
        cases impossible

theorem mapError_bind
    {γ : Type}
    (first : Except ε α)
    (next : α → Except ε β)
    (change : ε → γ) :
    (first >>= next).mapError change =
      first.mapError change >>= fun value => (next value).mapError change := by
  cases first with
  | error error => rfl
  | ok value => rfl

theorem mapError_map
    {γ : Type}
    (outcome : Except ε α)
    (change : α → β)
    (changeError : ε → γ) :
    (outcome.map change).mapError changeError =
      (outcome.mapError changeError).map change := by
  cases outcome with
  | error error => rfl
  | ok value => rfl

theorem map_eq_error_iff
    {outcome : Except ε α}
    {change : α → β}
    {error : ε} :
    outcome.map change = .error error ↔ outcome = .error error := by
  cases outcome with
  | error found => simp [Except.map]
  | ok value => simp [Except.map]

/-- Every error that a computation can end in satisfies a predicate. -/
def FailsOnlyWith (accepted : ε → Prop) (outcome : Except ε α) : Prop :=
  ∀ error, outcome = .error error → accepted error

namespace FailsOnlyWith

variable {accepted : ε → Prop}

theorem ok (value : α) :
    FailsOnlyWith accepted (.ok value : Except ε α) := by
  intro error failed
  cases failed

theorem error
    {error : ε}
    (isAccepted : accepted error) :
    FailsOnlyWith accepted (.error error : Except ε α) := by
  intro found failed
  cases failed
  exact isAccepted

theorem imp
    {other : ε → Prop}
    {outcome : Except ε α}
    (fails : FailsOnlyWith accepted outcome)
    (implies : ∀ error, accepted error → other error) :
    FailsOnlyWith other outcome := by
  intro error failed
  exact implies error (fails error failed)

theorem bind
    {first : Except ε α}
    {next : α → Except ε β}
    (firstFails : FailsOnlyWith accepted first)
    (nextFails : ∀ value, first = .ok value →
      FailsOnlyWith accepted (next value)) :
    FailsOnlyWith accepted (first >>= next) := by
  cases first with
  | error error => exact FailsOnlyWith.error (firstFails error rfl)
  | ok value => exact nextFails value rfl

theorem map
    {outcome : Except ε α}
    (fails : FailsOnlyWith accepted outcome)
    (change : α → β) :
    FailsOnlyWith accepted (outcome.map change) := by
  cases outcome with
  | error error => exact FailsOnlyWith.error (fails error rfl)
  | ok value => exact ok (change value)

end FailsOnlyWith

end ConditionalAssignment
