/-! # Computations that record events

`Traced Event Failure Value` is the outcome of a computation, a value or a failure, together with
the events that happened until then, in order. A failure keeps the events before it and stops all
that follows. `outcome_bind` says that forgetting the events leaves ordinary failing computations.
-/

namespace GuestProbe

/-- An outcome and the events on the way to it. -/
structure Traced (Event Failure Value : Type) where
  events : List Event
  outcome : Except Failure Value

namespace Traced

variable {Event Failure Value Result : Type}

/-- Runs a computation and, if it gives a value, the one that depends on it. -/
def andThen (first : Traced Event Failure Value) (next : Value → Traced Event Failure Result) :
    Traced Event Failure Result :=
  match first.outcome with
  | .error failure => ⟨first.events, .error failure⟩
  | .ok value =>
      let second := next value
      ⟨first.events ++ second.events, second.outcome⟩

instance : Monad (Traced Event Failure) where
  pure value := ⟨[], .ok value⟩
  bind := andThen

/-- Records one event. -/
def record (event : Event) : Traced Event Failure Unit :=
  ⟨[event], .ok ()⟩

/-- Records events in order. -/
def recordAll (events : List Event) : Traced Event Failure Unit :=
  ⟨events, .ok ()⟩

/-- Stops with a failure. -/
def fail (failure : Failure) : Traced Event Failure Value :=
  ⟨[], .error failure⟩

/-- An outcome without events. -/
def ofExcept (outcome : Except Failure Value) : Traced Event Failure Value :=
  ⟨[], outcome⟩

@[simp] theorem outcome_pure (value : Value) :
    (pure value : Traced Event Failure Value).outcome = .ok value := rfl

@[simp] theorem outcome_record (event : Event) :
    (record event : Traced Event Failure Unit).outcome = .ok () := rfl

@[simp] theorem outcome_recordAll (events : List Event) :
    (recordAll events : Traced Event Failure Unit).outcome = .ok () := rfl

@[simp] theorem outcome_fail (failure : Failure) :
    (fail failure : Traced Event Failure Value).outcome = .error failure := rfl

@[simp] theorem outcome_ofExcept (outcome : Except Failure Value) :
    (ofExcept outcome : Traced Event Failure Value).outcome = outcome := rfl

@[simp] theorem outcome_bind (first : Traced Event Failure Value)
    (next : Value → Traced Event Failure Result) :
    (first >>= next).outcome = first.outcome.bind fun value => (next value).outcome := by
  rcases first with ⟨events, _ | value⟩ <;> rfl

@[simp] theorem events_pure (value : Value) :
    (pure value : Traced Event Failure Value).events = [] := rfl

@[simp] theorem events_record (event : Event) :
    (record event : Traced Event Failure Unit).events = [event] := rfl

@[simp] theorem events_recordAll (events : List Event) :
    (recordAll events : Traced Event Failure Unit).events = events := rfl

@[simp] theorem events_fail (failure : Failure) :
    (fail failure : Traced Event Failure Value).events = [] := rfl

@[simp] theorem events_ofExcept (outcome : Except Failure Value) :
    (ofExcept outcome : Traced Event Failure Value).events = [] := rfl

/-- A value that is given goes into the next step. -/
theorem ofExcept_ok_bind (value : Value) (next : Value → Traced Event Failure Result) :
    (ofExcept (.ok value) : Traced Event Failure Value) >>= next = next value := rfl

theorem events_bind (first : Traced Event Failure Value)
    (next : Value → Traced Event Failure Result) :
    (first >>= next).events = first.events ++
      match first.outcome with
      | .ok value => (next value).events
      | .error _ => [] := by
  rcases first with ⟨events, _ | value⟩
  · exact (List.append_nil _).symm
  · rfl

theorem events_bind_of_ok {first : Traced Event Failure Value}
    {next : Value → Traced Event Failure Result} {value : Value} (success : first.outcome = .ok value) :
    (first >>= next).events = first.events ++ (next value).events := by
  rw [events_bind, success]

/-- An event of two steps is one of the first step, or of the second after the first. -/
theorem mem_events_bind {first : Traced Event Failure Value}
    {next : Value → Traced Event Failure Result} {event : Event} :
    event ∈ (first >>= next).events ↔
      event ∈ first.events ∨ ∃ value, first.outcome = .ok value ∧ event ∈ (next value).events := by
  rw [events_bind, List.mem_append]
  cases first.outcome <;> simp

end Traced

/-! ## Outcomes in a row -/

theorem exists_of_bind_eq_ok {Failure Value Result : Type} {outcome : Except Failure Value}
    {next : Value → Except Failure Result} {result : Result}
    (success : (outcome >>= next) = .ok result) :
    ∃ value, outcome = .ok value ∧ next value = .ok result := by
  cases outcome with
  | error failure => cases success
  | ok value => exact ⟨value, rfl, success⟩

/-- A failure of two steps is one of the first step, or of the second after the first. -/
theorem failed_of_bind_eq_error {Failure Value Result : Type} {outcome : Except Failure Value}
    {next : Value → Except Failure Result} {failure : Failure}
    (failed : (outcome >>= next) = .error failure) :
    outcome = .error failure ∨ ∃ value, outcome = .ok value ∧ next value = .error failure := by
  cases outcome with
  | error first => cases failed; exact .inl rfl
  | ok value => exact .inr ⟨value, rfl, failed⟩

end GuestProbe
