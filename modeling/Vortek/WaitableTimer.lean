import Mathlib.Data.List.Basic

namespace Vortek.WaitableTimer

/-!
# Timers with queued handlers

A wait on a timer is pending until the time has come or the timer is cancelled.
Either way its handler is queued, with success or as cancelled, and runs at some
later point.  A reset cancels the waits that are pending and may start a new
one.  It does not reach the handlers that are queued already.

So a handler that runs with success need not belong to the last reset.  It does
as long as the timer is not reset while such a handler is queued (`Current`).
-/

/-- What has become of a wait whose handler has not run. -/
inductive Phase where
  | pending
  | expired
  | cancelled
  deriving DecidableEq, Repr

/-- A wait, with the number of the reset that started it. -/
structure Wait where
  reset : Nat
  phase : Phase
  deriving DecidableEq, Repr

namespace Wait

/-- Queue the handler of a pending wait as cancelled. -/
def cancel (wait : Wait) : Wait :=
  if wait.phase = .pending then { wait with phase := .cancelled } else wait

/-- Queue the handler of a pending wait with success. -/
def expire (wait : Wait) : Wait :=
  if wait.phase = .pending then { wait with phase := .expired } else wait

@[simp] theorem expire_reset
    (wait : Wait) :
    wait.expire.reset = wait.reset := by
  unfold expire
  split
  · rfl
  · rfl

/-- Only handlers that were queued with success before are so after. -/
theorem cancel_phase
    (wait : Wait) :
    wait.cancel.phase = .cancelled ∨
      wait.cancel = wait ∧ wait.phase = .expired := by
  obtain ⟨reset, phase⟩ := wait
  cases phase with
  | pending =>
      exact Or.inl rfl
  | expired =>
      exact Or.inr ⟨rfl, rfl⟩
  | cancelled =>
      exact Or.inl rfl

/-- A cancelled wait stays cancelled. -/
theorem expire_phase
    (wait : Wait) :
    wait.expire.phase ≠ .cancelled → wait.phase ≠ .cancelled := by
  obtain ⟨reset, phase⟩ := wait
  cases phase with
  | pending =>
      exact fun _ => Phase.noConfusion
  | expired =>
      exact fun _ => Phase.noConfusion
  | cancelled =>
      exact fun kept => kept

end Wait

/-- A timer: how often it was reset, and the waits that have not called back. -/
structure Timer where
  resets : Nat
  waits : List Wait

namespace Timer

/-- All waits are cancelled. -/
def cancel (timer : Timer) : Timer :=
  { timer with waits := timer.waits.map Wait.cancel }

/-- All waits expire. -/
def elapse (timer : Timer) : Timer :=
  { timer with waits := timer.waits.map Wait.expire }

/-- Reset the timer: cancel what is pending and start a wait, or do nothing. -/
def reset (timer : Timer) (arms : Bool) : Timer where
  resets := timer.resets + 1
  waits :=
    if arms then
      timer.waits.map Wait.cancel ++ [⟨timer.resets + 1, .pending⟩]
    else
      timer.waits

/-- The handler of a wait has run. -/
def finish (timer : Timer) (index : Nat) : Timer :=
  { timer with waits := timer.waits.eraseIdx index }

/-- A handler is queued with success. -/
def hasExpired (timer : Timer) : Bool :=
  timer.waits.any fun wait => wait.phase == .expired

/-- All waits that are not cancelled belong to the last reset. -/
def Current (timer : Timer) : Prop :=
  ∀ wait ∈ timer.waits,
    wait.phase ≠ .cancelled →
    wait.reset = timer.resets

section Currency

variable {timer : Timer}

theorem current_nil
    (resets : Nat) :
    (Timer.mk resets []).Current :=
  fun _ member => absurd member List.not_mem_nil

/-- Cancelling asks nothing of the waits that are left. -/
theorem Current.cancel
    (current : timer.Current) :
    timer.cancel.Current := by
  intro wait member active
  obtain ⟨before, held, rfl⟩ := List.mem_map.mp member
  rcases before.cancel_phase with cancelled | ⟨same, expired⟩
  · exact absurd cancelled active
  · rw [same] at active ⊢
    exact current before held active

theorem Current.elapse
    (current : timer.Current) :
    timer.elapse.Current := by
  intro wait member active
  obtain ⟨before, held, rfl⟩ := List.mem_map.mp member
  rw [Wait.expire_reset]
  exact current before held (before.expire_phase active)

/-- A wait that has finished is taken out. -/
theorem Current.finish
    (current : timer.Current)
    (index : Nat) :
    (timer.finish index).Current := by
  intro wait member
  exact current wait (List.mem_of_mem_eraseIdx member)

/-- A reset is the last one for all waits if no handler is queued. -/
theorem current_reset
    (calm : timer.hasExpired = false) :
    (timer.reset true).Current := by
  intro wait member active
  rcases List.mem_append.mp member with old | new
  · obtain ⟨before, held, rfl⟩ := List.mem_map.mp old
    rcases before.cancel_phase with cancelled | ⟨-, expired⟩
    · exact absurd cancelled active
    · have none := List.any_eq_false.mp calm before held
      simp [expired] at none
  · obtain rfl := List.mem_singleton.mp new
    rfl

end Currency

section Counting

/-- Neither cancelling nor the passing of time runs a handler. -/
@[simp] theorem length_cancel
    (timer : Timer) :
    timer.cancel.waits.length = timer.waits.length :=
  List.length_map _

@[simp] theorem length_elapse
    (timer : Timer) :
    timer.elapse.waits.length = timer.waits.length :=
  List.length_map _

/-- A reset that arms the timer adds one wait. -/
theorem length_reset
    (timer : Timer)
    (arms : Bool) :
    (timer.reset arms).waits.length =
      timer.waits.length + if arms then 1 else 0 := by
  cases arms with
  | false =>
      rfl
  | true =>
      simp [reset]

/-- One wait finishes at a time. -/
theorem length_finish
    {timer : Timer}
    {index : Nat}
    {wait : Wait}
    (queued : timer.waits[index]? = some wait) :
    (timer.finish index).waits.length = timer.waits.length - 1 :=
  List.length_eraseIdx_of_lt (List.getElem?_eq_some_iff.mp queued).1

end Counting

end Timer

end Vortek.WaitableTimer
