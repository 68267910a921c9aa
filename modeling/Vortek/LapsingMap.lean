import Mathlib.Logic.Function.Basic
import Mathlib.Order.Lattice

namespace Vortek.LapsingMap

/-!
# Maps whose entries lapse

A lapsing map gives some keys a payload and, possibly, a deadline.  A key is
visible at a time if its deadline, if it has one, is later.  What has lapsed
stays in the map until someone removes it.

Two maps that show the same from some time on cannot be told apart by looking,
at that time or later, and no update of a single key separates them
(`AgreeFrom`).  In particular a sweep, which removes what has lapsed, makes no
difference to anyone who looks later.
-/

variable {Key Payload Time : Type} [LinearOrder Time]

/-- A payload that may have a deadline. -/
structure Lease (Payload Time : Type) where
  payload : Payload
  deadline : Option Time

/-- The lease has no deadline, or one that is still to come. -/
def Lease.alive (lease : Lease Payload Time) (now : Time) : Bool :=
  match lease.deadline with
  | none => true
  | some deadline => decide (now < deadline)

/-- Leases by key, the lapsed ones included. -/
abbrev LeaseMap (Key Payload Time : Type) :=
  Key → Option (Lease Payload Time)

/-- What a lookup at a time shows. -/
def visible
    (map : LeaseMap Key Payload Time)
    (now : Time)
    (key : Key) :
    Option (Lease Payload Time) :=
  (map key).filter fun lease => lease.alive now

/-- The map without what has lapsed at a time. -/
def sweep
    (map : LeaseMap Key Payload Time)
    (now : Time) :
    LeaseMap Key Payload Time :=
  visible map now

/-- The two maps show the same at this time and ever after. -/
def AgreeFrom
    (now : Time)
    (first second : LeaseMap Key Payload Time) :
    Prop :=
  ∀ later,
    now ≤ later →
    ∀ key, visible first later key = visible second later key

/-- What is alive later is alive now. -/
theorem Lease.alive_of_le
    {lease : Lease Payload Time}
    {now later : Time}
    (order : now ≤ later)
    (alive : lease.alive later = true) :
    lease.alive now = true := by
  unfold Lease.alive at alive ⊢
  split
  · rfl
  · rename_i deadline shape
    simp only [shape, decide_eq_true_eq] at alive ⊢
    exact lt_of_le_of_lt order alive

theorem visible_eq_some_iff
    {map : LeaseMap Key Payload Time}
    {now : Time}
    {key : Key}
    {lease : Lease Payload Time} :
    visible map now key = some lease ↔
      map key = some lease ∧ lease.alive now = true := by
  simp [visible, Option.filter_eq_some_iff]

/-- A lookup after a sweep shows what a lookup without it shows. -/
theorem visible_sweep
    {map : LeaseMap Key Payload Time}
    {now later : Time}
    (order : now ≤ later)
    (key : Key) :
    visible (sweep map now) later key = visible map later key := by
  apply Option.ext
  intro lease
  rw [visible_eq_some_iff, visible_eq_some_iff, sweep,
    visible_eq_some_iff]
  constructor
  · rintro ⟨⟨found, -⟩, alive⟩
    exact ⟨found, alive⟩
  · rintro ⟨found, alive⟩
    exact ⟨⟨found, Lease.alive_of_le order alive⟩, alive⟩

namespace AgreeFrom

variable {now later : Time}
variable {first second : LeaseMap Key Payload Time}

theorem refl
    (map : LeaseMap Key Payload Time) :
    AgreeFrom now map map :=
  fun _ _ _ => rfl

/-- Agreement survives the passing of time. -/
theorem mono
    (agree : AgreeFrom now first second)
    (order : now ≤ later) :
    AgreeFrom later first second :=
  fun time after => agree time (le_trans order after)

/-- A sweep makes no difference. -/
theorem sweep
    (agree : AgreeFrom now first second) :
    AgreeFrom now (LapsingMap.sweep first now) second :=
  fun time order key =>
    (visible_sweep order key).trans (agree time order key)

variable [DecidableEq Key]

/-- Giving a key a new lease, or none, makes no difference. -/
theorem update
    (agree : AgreeFrom now first second)
    (key : Key)
    (lease : Option (Lease Payload Time)) :
    AgreeFrom now
      (Function.update first key lease)
      (Function.update second key lease) := by
  intro time order other
  by_cases same : other = key
  · subst same
    simp [visible]
  · have shown := agree time order other
    simpa [visible, same] using shown

end AgreeFrom

end Vortek.LapsingMap
