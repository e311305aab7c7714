import ConditionalAssignment.Cursor

/-!
# Events

Reading a text reports what it meets on the way.  An event is a value, so a
computation that reports is one that returns its events with its outcome.  What
was reported before a failure stays reported.
-/

namespace ConditionalAssignment

/-- Something that reading a text reports. -/
inductive Event where
  /-- A stretch of text made no token. -/
  | skippedInput (error : LexError)
  /-- Lexical errors keep the tokens from being read. -/
  | refusedAnalysis (count : Nat)
  /-- A conditional starts at an offset, and its block has so many tokens. -/
  | conditionalStatement (offset tokens : Nat)
  /-- An assignment starts at an offset. -/
  | assignmentStatement (offset : Nat)
deriving DecidableEq

namespace Event

/-- The level of an event. -/
def level : Event → String
  | skippedInput _ => "TRACE"
  | _ => "DEBUG"

/-- The text of an event. -/
def message : Event → String
  | skippedInput _ => "skipping unclassified input"
  | refusedAnalysis _ => "refusing syntax analysis"
  | conditionalStatement _ _ => "conditional statement"
  | assignmentStatement _ => "assignment statement"

/-- The named values of an event. -/
def fields : Event → List (String × String)
  | skippedInput error => [("err", error.message)]
  | refusedAnalysis count => [("count", toString count)]
  | conditionalStatement offset tokens =>
      [("offset", toString offset), ("tokens", toString tokens)]
  | assignmentStatement offset => [("offset", toString offset)]

end Event

/-- The outcome of a computation and the events it reported. -/
structure Traced (ε α : Type) where
  /-- The events in the order in which they were reported. -/
  events : List Event
  /-- The result or the error. -/
  outcome : Except ε α

namespace Traced

variable {ε α β : Type}

/-- Succeed without an event. -/
def succeed (value : α) : Traced ε α :=
  ⟨[], .ok value⟩

/-- Fail without an event. -/
def fail (error : ε) : Traced ε α :=
  ⟨[], .error error⟩

/-- Take the outcome of a computation that reports nothing. -/
def ofExcept (outcome : Except ε α) : Traced ε α :=
  ⟨[], outcome⟩

/-- Report one event. -/
def report (event : Event) : Traced ε Unit :=
  ⟨[event], .ok ()⟩

/-- Run a computation, and if it succeeds the one that its value gives. -/
def andThen (first : Traced ε α) (next : α → Traced ε β) : Traced ε β :=
  match first.outcome with
  | .error error => ⟨first.events, .error error⟩
  | .ok value =>
      let second := next value
      ⟨first.events ++ second.events, second.outcome⟩

/-- Change the value of a computation and keep its events. -/
def map (change : α → β) (traced : Traced ε α) : Traced ε β :=
  ⟨traced.events, traced.outcome.map change⟩

/-- Change the error of a computation and keep its events. -/
def mapError
    {δ : Type}
    (change : ε → δ)
    (traced : Traced ε α) : Traced δ α :=
  ⟨traced.events, traced.outcome.mapError change⟩

instance : Monad (Traced ε) where
  pure := succeed
  bind := andThen
  map := map

@[simp] theorem outcome_succeed (value : α) :
    (succeed value : Traced ε α).outcome = .ok value :=
  rfl

@[simp] theorem outcome_fail (error : ε) :
    (fail error : Traced ε α).outcome = .error error :=
  rfl

@[simp] theorem outcome_ofExcept (outcome : Except ε α) :
    (ofExcept outcome).outcome = outcome :=
  rfl

@[simp] theorem outcome_report (event : Event) :
    (report event : Traced ε Unit).outcome = .ok () :=
  rfl

@[simp] theorem outcome_mapError
    {δ : Type}
    (change : ε → δ)
    (traced : Traced ε α) :
    (traced.mapError change).outcome = traced.outcome.mapError change :=
  rfl

@[simp] theorem outcome_map
    (change : α → β)
    (traced : Traced ε α) :
    (change <$> traced).outcome = traced.outcome.map change :=
  rfl

@[simp] theorem outcome_pure (value : α) :
    (pure value : Traced ε α).outcome = .ok value :=
  rfl

/-- The outcome of a sequence does not depend on events. -/
@[simp] theorem outcome_bind
    (first : Traced ε α)
    (next : α → Traced ε β) :
    (first >>= next).outcome =
      first.outcome >>= fun value => (next value).outcome := by
  obtain ⟨events, outcome⟩ := first
  cases outcome <;> rfl

/-- The events of a sequence whose first step succeeds are those of both. -/
theorem events_bind_of_ok
    {first : Traced ε α}
    {value : α}
    (succeeded : first.outcome = .ok value)
    (next : α → Traced ε β) :
    (first >>= next).events = first.events ++ (next value).events := by
  obtain ⟨events, outcome⟩ := first
  cases succeeded
  rfl

end Traced

end ConditionalAssignment
