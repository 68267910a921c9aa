import Mathlib.Data.List.Basic

namespace Vortek.EmittingMachine

/-!
# Machines that emit

A machine goes from state to state, one event after the other, and emits items
on the way.  What is known of each event is carried over to whole runs here: an
invariant, also one that only some items keep, a relation between the states
before and after and what was emitted between them, the event that brings
something about, and a measure by which events run out.
-/

/-- What an event makes of a state, and what it emits. -/
structure Machine (State Event Item : Type) where
  step : State → Event → State
  emit : State → Event → List Item

namespace Machine

variable {State Event Item : Type}

/-- Handle events one after the other. -/
def run
    (machine : Machine State Event Item)
    (state : State)
    (events : List Event) :
    State :=
  events.foldl machine.step state

/-- What a run emits, in order. -/
def emitted
    (machine : Machine State Event Item) :
    State → List Event → List Item
  | _, [] => []
  | state, event :: later =>
      machine.emit state event ++
        machine.emitted (machine.step state event) later

section Runs

variable {machine : Machine State Event Item} {state : State}

theorem run_append
    (events more : List Event) :
    machine.run state (events ++ more) =
      machine.run (machine.run state events) more :=
  List.foldl_append

theorem run_concat
    (events : List Event)
    (event : Event) :
    machine.run state (events ++ [event]) =
      machine.step (machine.run state events) event :=
  run_append events [event]

theorem emitted_append
    (events more : List Event) :
    machine.emitted state (events ++ more) =
      machine.emitted state events ++
        machine.emitted (machine.run state events) more := by
  induction events generalizing state with
  | nil =>
      rfl
  | cons event later inductionHypothesis =>
      simp only [List.cons_append, emitted, inductionHypothesis,
        List.append_assoc]
      rfl

/-- What every event keeps holds after a run. -/
theorem invariant
    (holds : State → Prop)
    (keeps :
      ∀ state event, holds state → holds (machine.step state event))
    (initially : holds state)
    (events : List Event) :
    holds (machine.run state events) := by
  induction events generalizing state with
  | nil =>
      exact initially
  | cons event later inductionHypothesis =>
      exact inductionHypothesis (keeps state event initially)

/--
What every event keeps that emits only allowed items holds after a run that
emits only such items.
-/
theorem invariant_of_emitted
    (holds : State → Prop)
    (allowed : Item → Prop)
    (keeps :
      ∀ state event,
        holds state →
        (∀ item ∈ machine.emit state event, allowed item) →
        holds (machine.step state event))
    (initially : holds state)
    {events : List Event}
    (only : ∀ item ∈ machine.emitted state events, allowed item) :
    holds (machine.run state events) := by
  induction events generalizing state with
  | nil =>
      exact initially
  | cons event later inductionHypothesis =>
      obtain ⟨first, rest⟩ := List.forall_mem_append.mp only
      exact inductionHypothesis (keeps state event initially first) rest

/--
A relation between the states before and after, and what was emitted between
them, holds of every run if it holds of every event and can be composed.
-/
theorem traced
    (good : State → Prop)
    (stays : ∀ state event, good state → good (machine.step state event))
    (relates : State → List Item → State → Prop)
    (refl : ∀ state, relates state [] state)
    (trans :
      ∀ {first middle last items more},
        relates first items middle →
        relates middle more last →
        relates first (items ++ more) last)
    (single :
      ∀ state event,
        good state →
        relates state (machine.emit state event) (machine.step state event))
    (initially : good state)
    (events : List Event) :
    relates state (machine.emitted state events)
      (machine.run state events) := by
  induction events generalizing state with
  | nil =>
      exact refl state
  | cons event later inductionHypothesis =>
      exact trans (single state event initially)
        (inductionHypothesis (stays state event initially))

/-- Whatever a run brings about is brought about by one of its events. -/
theorem exists_turning_point
    (holds : State → Prop)
    (initially : ¬holds state)
    {events : List Event}
    (reached : holds (machine.run state events)) :
    ∃ before event later,
      events = before ++ event :: later ∧
        ¬holds (machine.run state before) ∧
        holds (machine.run state (before ++ [event])) := by
  induction events generalizing state with
  | nil =>
      exact absurd reached initially
  | cons event later inductionHypothesis =>
      by_cases turned : holds (machine.step state event)
      · exact ⟨[], event, later, rfl, initially, turned⟩
      · obtain ⟨before, turning, rest, rfl, still, done⟩ :=
          inductionHypothesis turned reached
        exact ⟨event :: before, turning, rest, rfl, still, done⟩

end Runs

section Draining

variable {machine : Machine State Event Item}

/-- Every event of a run is owed by the state that it finds. -/
def Obliges
    (machine : Machine State Event Item)
    (owes : State → Event → Prop) :
    State → List Event → Prop
  | _, [] => True
  | state, event :: later =>
      owes state event ∧
        machine.Obliges owes (machine.step state event) later

/-- Owed events may be followed by others that are owed behind them. -/
theorem Obliges.append
    {owes : State → Event → Prop}
    {state : State}
    {events more : List Event}
    (first : machine.Obliges owes state events)
    (second : machine.Obliges owes (machine.run state events) more) :
    machine.Obliges owes state (events ++ more) := by
  induction events generalizing state with
  | nil =>
      exact second
  | cons event later inductionHypothesis =>
      exact ⟨first.1, inductionHypothesis first.2 second⟩

variable (owes : State → Event → Prop)
variable (good : State → Prop) (work : State → Nat)

/-- What every owed event keeps holds after a run of such events. -/
theorem good_of_obliges
    (keeps :
      ∀ state event,
        good state → owes state event → good (machine.step state event))
    {state : State}
    (initially : good state)
    {events : List Event}
    (obliges : machine.Obliges owes state events) :
    good (machine.run state events) := by
  induction events generalizing state with
  | nil =>
      exact initially
  | cons event later inductionHypothesis =>
      exact inductionHypothesis (keeps state event initially obliges.1)
        obliges.2

/-- Events that take away from a measure are at most as many as it says. -/
theorem length_le_of_obliges
    (pays :
      ∀ state event,
        good state →
        owes state event →
        good (machine.step state event) ∧
          work (machine.step state event) < work state)
    {state : State}
    (initially : good state)
    {events : List Event}
    (obliges : machine.Obliges owes state events) :
    events.length ≤ work state := by
  induction events generalizing state with
  | nil =>
      exact Nat.zero_le _
  | cons event later inductionHypothesis =>
      obtain ⟨kept, less⟩ := pays state event initially obliges.1
      exact Nat.lt_of_le_of_lt (inductionHypothesis kept obliges.2) less

variable (machine)

/-- Such events can be run until nothing is owed. -/
theorem exists_settled
    (pays :
      ∀ state event,
        good state →
        owes state event →
        good (machine.step state event) ∧
          work (machine.step state event) < work state)
    {state : State}
    (initially : good state) :
    ∃ events,
      machine.Obliges owes state events ∧
        good (machine.run state events) ∧
        ∀ event, ¬owes (machine.run state events) event := by
  induction size : work state using Nat.strongRecOn generalizing state with
  | ind _ inductionHypothesis =>
      by_cases settled : ∃ event, owes state event
      · obtain ⟨event, owed⟩ := settled
        obtain ⟨kept, less⟩ := pays state event initially owed
        obtain ⟨later, obliges, reached, nothing⟩ :=
          inductionHypothesis _ (size ▸ less) kept rfl
        exact ⟨event :: later, ⟨owed, obliges⟩, reached, nothing⟩
      · exact ⟨[], trivial, initially, fun event owed =>
          settled ⟨event, owed⟩⟩

end Draining

end Machine

end Vortek.EmittingMachine
