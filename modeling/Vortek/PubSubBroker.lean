import Mathlib.Algebra.Group.Nat.Defs
import Mathlib.Data.List.AList
import Vortek.KvStore

namespace Vortek

/-!
# The publish/subscribe broker

`PubSubBroker` is the channel table of `pubsub_broker.cpp`.  A write callback
is the closure that `handle_subscribe` builds, so it is given by what it
captures: the connection and the channel name.  `publish` returns the callbacks
it fires, each with the message, in firing order.
-/

/-- `static_cast<int64_t>(size)`. -/
def toInt64 (size : Nat) : Int64 :=
  Int64.ofInt size

theorem toInt64_add
    (first second : Nat) :
    toInt64 (first + second) = toInt64 first + toInt64 second := by
  simp [toInt64, Int64.ofInt_add]

/-- One more subscriber counts one more. -/
theorem toInt64_succ
    (size : Nat) :
    toInt64 (size + 1) = toInt64 size + 1 :=
  toInt64_add size 1

/-- A size that fits is kept. -/
theorem toInt_toInt64
    {size : Nat}
    (fits : size < 2 ^ 63) :
    (toInt64 size).toInt = size :=
  Int64.toInt_ofInt_of_le (by omega) (by omega)

/-- What was counted on the way from one size to a larger one. -/
theorem eq_toInt64_sub
    {count : Int64}
    {small large : Nat}
    (counted : count + toInt64 small = toInt64 large)
    (grows : small ≤ large) :
    count = toInt64 (large - small) := by
  obtain ⟨difference, rfl⟩ := Nat.exists_eq_add_of_le grows
  rw [Nat.add_comm small, toInt64_add] at counted
  rw [Nat.add_sub_cancel_left]
  exact (Int64.add_left_inj _).mp counted

/-- What the write callback of a subscription captures. -/
structure WriteFn where
  connection : Nat
  channel : Bytes
  deriving DecidableEq, Repr

/-- One subscription of a channel. -/
structure Subscriber where
  id : Nat
  write : WriteFn
  deriving DecidableEq, Repr

/-- A fired callback. -/
structure Delivery where
  write : WriteFn
  message : Bytes
  deriving DecidableEq, Repr

/-- Subscribers by channel. -/
structure PubSubBroker where
  channels : ByteMap (List Subscriber)

namespace PubSubBroker

/-- A broker without subscribers. -/
def empty : PubSubBroker :=
  ⟨∅⟩

/-- Replace the callback of the first subscriber with the given id. -/
def replaceWrite (id : Nat) (write : WriteFn) :
    List Subscriber → Option (List Subscriber)
  | [] => none
  | subscriber :: later =>
      if subscriber.id = id then
        some ({ subscriber with write := write } :: later)
      else
        (replaceWrite id write later).map (subscriber :: ·)

/-- Subscribe an id to a channel and count the channel's subscribers. -/
def subscribe
    (broker : PubSubBroker)
    (channel : Bytes)
    (id : Nat)
    (write : WriteFn) :
    Int64 × PubSubBroker :=
  let subscribers := (broker.channels.lookup channel).getD []
  let updated :=
    match replaceWrite id write subscribers with
    | some replaced => replaced
    | none => subscribers ++ [⟨id, write⟩]
  (toInt64 updated.length, ⟨broker.channels.insert channel updated⟩)

/-- Remove an id from a channel and count who is left. -/
def unsubscribe
    (broker : PubSubBroker)
    (channel : Bytes)
    (id : Nat) :
    Int64 × PubSubBroker :=
  match broker.channels.lookup channel with
  | none => (0, broker)
  | some subscribers =>
      let remaining := subscribers.filter fun other => other.id ≠ id
      (toInt64 remaining.length,
        if remaining.isEmpty then
          ⟨broker.channels.erase channel⟩
        else
          ⟨broker.channels.insert channel remaining⟩)

/-- Remove an id from each of the given channels; name those it was in. -/
def leaveChannels (id : Nat) :
    List Bytes → PubSubBroker → List Bytes × PubSubBroker
  | [], broker => ([], broker)
  | channel :: later, broker =>
      let subscribers := (broker.channels.lookup channel).getD []
      let joined := subscribers.any fun other => other.id = id
      let rest := leaveChannels id later (broker.unsubscribe channel id).2
      (if joined then channel :: rest.1 else rest.1, rest.2)

/-- Remove an id from every channel. -/
def unsubscribeAll
    (broker : PubSubBroker)
    (id : Nat) :
    List Bytes × PubSubBroker :=
  leaveChannels id broker.channels.keys broker

/-- Fire the callbacks of a channel and count them. -/
def publish
    (broker : PubSubBroker)
    (channel message : Bytes) :
    Int64 × List Delivery :=
  match broker.channels.lookup channel with
  | none => (0, [])
  | some subscribers =>
      (toInt64 subscribers.length,
        subscribers.map fun subscriber => ⟨subscriber.write, message⟩)

end PubSubBroker

end Vortek
