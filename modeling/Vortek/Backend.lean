import Vortek.CallScript
import Vortek.PubSubBroker
import Vortek.RespValue

namespace Vortek

open CallScript

/-!
# What command handlers can reach

A handler is a program that calls the key-value store, the server statistics
and the broker, and that returns a reply or throws.  `Call` lists these calls;
a handler is a script over them, so that what it may call, return or throw can
be said without fixing the state.  `Backend.step` is the state behind the calls
at one clock reading.
-/

/-- Counters and settings of the server. -/
structure ServerStats where
  startTime : TimePoint
  connectedClients : Int64
  totalCommands : Int64
  ready : Bool
  port : UInt16
  aofEnabled : Bool

/-- Whole seconds since the start of the server. -/
def ServerStats.uptimeSeconds
    (stats : ServerStats)
    (now : TimePoint) :
    Int64 :=
  (now - stats.startTime) / 1000000000

/-- A call that a handler can make. -/
inductive Call where
  | set (key : Bytes) (value : Value) (ttl : Int64)
  | get (key : Bytes)
  | del (key : Bytes)
  | exists? (key : Bytes)
  | expire (key : Bytes) (ttl : Int64)
  | ttl (key : Bytes)
  | persist (key : Bytes)
  | size
  | approxMemoryBytes
  | stats
  | uptimeSeconds
  | publish (channel message : Bytes)

namespace Call

/-- What a call returns. -/
abbrev Answer : Call → Type
  | .set _ _ _ => Unit
  | .get _ => Option Value
  | .del _ => Int64
  | .exists? _ => Bool
  | .expire _ _ => Bool
  | .ttl _ => Int64
  | .persist _ => Bool
  | .size => Nat
  | .approxMemoryBytes => Nat
  | .stats => ServerStats
  | .uptimeSeconds => Int64
  | .publish _ _ => Int64

/-- The call does not change the store. -/
def KeepsStore : Call → Prop
  | .set _ _ _ | .del _ | .expire _ _ | .persist _ => False
  | _ => True

/-- The call posts no message. -/
def Silent : Call → Prop
  | .publish _ _ => False
  | _ => True

/-- The call only looks at the state. -/
def Observes : Call → Prop
  | .set _ _ _ | .del _ | .expire _ _ | .persist _ | .publish _ _ => False
  | _ => True

/-- The call uses single entries of the store, and changes listed keys only. -/
def Within (keys : List Bytes) : Call → Prop
  | .set key _ _ => key ∈ keys
  | .del key => key ∈ keys
  | .expire key _ => key ∈ keys
  | .persist key => key ∈ keys
  | .get _ | .exists? _ | .ttl _ => True
  | _ => False

/-- Like `Within`, but no deadline is set. -/
def Modifies (keys : List Bytes) : Call → Prop
  | .set key _ duration => key ∈ keys ∧ duration = 0
  | .del key => key ∈ keys
  | .persist key => key ∈ keys
  | .get _ | .exists? _ | .ttl _ => True
  | _ => False

/-- A call that only observes keeps the store. -/
theorem Observes.keepsStore
    {call : Call}
    (observes : call.Observes) :
    call.KeepsStore := by
  cases call <;> first | exact observes.elim | trivial

/-- A call that only observes posts nothing. -/
theorem Observes.silent
    {call : Call}
    (observes : call.Observes) :
    call.Silent := by
  cases call <;> first | exact observes.elim | trivial

theorem Within.silent
    {keys : List Bytes}
    {call : Call}
    (within : call.Within keys) :
    call.Silent := by
  cases call <;> first | exact within.elim | trivial

/-- What modifies some keys stays within them. -/
theorem Modifies.within
    {keys : List Bytes}
    {call : Call}
    (modifies : call.Modifies keys) :
    call.Within keys := by
  cases call with
  | set =>
      exact modifies.1
  | del | persist =>
      exact modifies
  | get | exists? | ttl =>
      trivial
  | expire | size | approxMemoryBytes | stats | uptimeSeconds
  | publish =>
      exact modifies.elim

end Call

/-- A program over the calls of a handler. -/
abbrev Program := Script Call Call.Answer CppException

namespace Program

/-- `store.set(key, value, ttl)`, as a program. -/
abbrev set (key : Bytes) (value : Value) (ttl : Int64) : Program Unit :=
  Script.invoke (Call.set key value ttl)

/-- `store.get(key)`, as a program. -/
abbrev get (key : Bytes) : Program (Option Value) :=
  Script.invoke (Call.get key)

/-- `store.del(key)`, as a program. -/
abbrev del (key : Bytes) : Program Int64 :=
  Script.invoke (Call.del key)

/-- `store.exists(key)`, as a program. -/
abbrev exists? (key : Bytes) : Program Bool :=
  Script.invoke (Call.exists? key)

/-- `store.expire(key, ttl)`, as a program. -/
abbrev expire (key : Bytes) (ttl : Int64) : Program Bool :=
  Script.invoke (Call.expire key ttl)

/-- `store.ttl(key)`, as a program. -/
abbrev ttl (key : Bytes) : Program Int64 :=
  Script.invoke (Call.ttl key)

/-- `store.persist(key)`, as a program. -/
abbrev persist (key : Bytes) : Program Bool :=
  Script.invoke (Call.persist key)

/-- `store.size()`, as a program. -/
abbrev size : Program Nat :=
  Script.invoke Call.size

/-- `store.approx_memory_bytes()`, as a program. -/
abbrev approxMemoryBytes : Program Nat :=
  Script.invoke Call.approxMemoryBytes

/-- A look at the counters of the server. -/
abbrev stats : Program ServerStats :=
  Script.invoke Call.stats

/-- `stats.uptime_seconds()`, as a program. -/
abbrev uptimeSeconds : Program Int64 :=
  Script.invoke Call.uptimeSeconds

/-- `broker->publish(channel, message)`, as a program. -/
abbrev publish (channel message : Bytes) : Program Int64 :=
  Script.invoke (Call.publish channel message)

end Program

/--
The state that handlers share.  `posted` holds the pushes that `publish` has
posted to the event loop, oldest first.
-/
structure Backend where
  store : KvStore
  stats : ServerStats
  broker : Option PubSubBroker
  posted : List Delivery

namespace Backend

/-- A server that has just started on the default port, without a broker. -/
def initial : Backend :=
  ⟨KvStore.empty, ⟨0, 0, 0, true, 6379, false⟩, none, []⟩

/-- Answer one call at a clock reading. -/
def step (now : TimePoint) :
    (call : Call) → Backend → call.Answer × Backend
  | .set key value ttl, backend =>
      ((), { backend with store := backend.store.set now key value ttl })
  | .get key, backend =>
      (backend.store.get now key, backend)
  | .del key, backend =>
      ((backend.store.del now key).1,
        { backend with store := (backend.store.del now key).2 })
  | .exists? key, backend =>
      (backend.store.exists? now key, backend)
  | .expire key ttl, backend =>
      ((backend.store.expire now key ttl).1,
        { backend with store := (backend.store.expire now key ttl).2 })
  | .ttl key, backend =>
      (backend.store.ttl now key, backend)
  | .persist key, backend =>
      ((backend.store.persist now key).1,
        { backend with store := (backend.store.persist now key).2 })
  | .size, backend =>
      (backend.store.size, backend)
  | .approxMemoryBytes, backend =>
      (backend.store.approxMemoryBytes, backend)
  | .stats, backend =>
      (backend.stats, backend)
  | .uptimeSeconds, backend =>
      (backend.stats.uptimeSeconds now, backend)
  | .publish channel message, backend =>
      match backend.broker with
      | none => (0, backend)
      | some broker =>
          ((broker.publish channel message).1,
            { backend with
              posted :=
                backend.posted ++ (broker.publish channel message).2 })

/-- Run a program at one clock reading. -/
def exec
    {Result : Type}
    (now : TimePoint)
    (program : Program Result)
    (backend : Backend) :
    Except CppException Result × Backend :=
  Script.run (step now) program backend

/-- Calls that keep the store leave it as it is. -/
theorem step_store_of_keepsStore
    {now : TimePoint}
    {call : Call}
    {backend : Backend}
    (keeps : call.KeepsStore) :
    (step now call backend).2.store = backend.store := by
  cases call with
  | set | del | expire | persist =>
      exact keeps.elim
  | get | exists? | ttl | size | approxMemoryBytes | stats
  | uptimeSeconds =>
      rfl
  | publish channel message =>
      cases broker : backend.broker <;> simp [step, broker]

end Backend

end Vortek
