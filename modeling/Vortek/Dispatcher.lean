import Vortek.GenericCommands
import Vortek.HashCommands
import Vortek.ListCommands
import Vortek.SetCommands
import Vortek.StringCommands

namespace Vortek

open CallScript

/-!
# The dispatcher

The handler table of `dispatcher.cpp` with everything that `make_default`
registers.  `register_handler` keeps the first handler of a name, and a lookup
in the list finds the first one.
-/

/-- Handlers by command name. -/
structure Dispatcher where
  handlers : List (Bytes × Handler)

namespace Dispatcher

/-- `register_generic`, in the order of the source. -/
def registerGeneric : List (Bytes × Handler) :=
  [(ascii "PING", cmdPing),
    (ascii "DEL", cmdDel),
    (ascii "EXISTS", cmdExists),
    (ascii "EXPIRE", cmdExpire),
    (ascii "TTL", cmdTtl),
    (ascii "PERSIST", cmdPersist),
    (ascii "HEALTH", cmdHealth),
    (ascii "INFO", cmdInfo),
    (ascii "READY", cmdReady),
    (ascii "METRICS", cmdMetrics)]

/-- `register_string`. -/
def registerString : List (Bytes × Handler) :=
  [(ascii "SET", cmdSet),
    (ascii "GET", cmdGet),
    (ascii "INCR", cmdIncr),
    (ascii "DECR", cmdDecr),
    (ascii "INCRBY", cmdIncrby),
    (ascii "DECRBY", cmdDecrby)]

/-- `register_list`. -/
def registerList : List (Bytes × Handler) :=
  [(ascii "LPUSH", cmdLpush),
    (ascii "RPUSH", cmdRpush),
    (ascii "LPOP", cmdLpop),
    (ascii "RPOP", cmdRpop),
    (ascii "LLEN", cmdLlen),
    (ascii "LRANGE", cmdLrange),
    (ascii "LINDEX", cmdLindex)]

/-- `register_set`. -/
def registerSet : List (Bytes × Handler) :=
  [(ascii "SADD", cmdSadd),
    (ascii "SREM", cmdSrem),
    (ascii "SMEMBERS", cmdSmembers),
    (ascii "SISMEMBER", cmdSismember),
    (ascii "SCARD", cmdScard)]

/-- `register_hash`. -/
def registerHash : List (Bytes × Handler) :=
  [(ascii "HSET", cmdHset),
    (ascii "HGET", cmdHget),
    (ascii "HDEL", cmdHdel),
    (ascii "HGETALL", cmdHgetall),
    (ascii "HEXISTS", cmdHexists),
    (ascii "HLEN", cmdHlen)]

/-- `register_pubsub`. -/
def registerPubsub : List (Bytes × Handler) :=
  [(ascii "PUBLISH", cmdPublish)]

/-- All built-in commands; PUBLISH needs a broker. -/
def makeDefault (withBroker : Bool) : Dispatcher :=
  ⟨registerGeneric ++ registerString ++ registerList ++ registerSet ++
    registerHash ++ if withBroker then registerPubsub else []⟩

/-- The error that quotes a name no handler is registered for. -/
def unknownCommand (name : Bytes) : RespValue :=
  .error (ascii "ERR unknown command '" ++ name ++ ascii "'")

/-- Run the registered handler, or refuse the name. -/
def dispatch (dispatcher : Dispatcher) : Handler := fun cmd =>
  match dispatcher.handlers.lookup cmd.name with
  | none => return unknownCommand cmd.name
  | some handler => handler cmd

/-- Whether a name has a handler. -/
def isRegistered (dispatcher : Dispatcher) (name : Bytes) : Bool :=
  (dispatcher.handlers.lookup name).isSome

end Dispatcher

/-- A dispatched command with the clock and the state it found. -/
structure Dispatch where
  now : TimePoint
  backend : Backend
  cmd : Command

/-- Dispatch on the handlers' state, with PUBLISH if it has a broker. -/
def Backend.dispatch
    (backend : Backend)
    (now : TimePoint)
    (cmd : Command) :
    Except CppException RespValue × Backend :=
  backend.exec now
    ((Dispatcher.makeDefault backend.broker.isSome).dispatch cmd)

/-- Dispatch commands at given clock readings, with all their outcomes. -/
def Backend.dispatchEach :
    Backend → List (TimePoint × Command) →
      List (Except CppException RespValue) × Backend
  | backend, [] => ([], backend)
  | backend, (now, cmd) :: later =>
      let outcome := backend.dispatch now cmd
      let rest := dispatchEach outcome.2 later
      (outcome.1 :: rest.1, rest.2)

namespace Dispatcher

/-- A handler found by a lookup is in the table under that name. -/
theorem mem_of_lookup
    {name : Bytes}
    {handler : Handler}
    {handlers : List (Bytes × Handler)}
    (found : handlers.lookup name = some handler) :
    (name, handler) ∈ handlers := by
  induction handlers with
  | nil =>
      cases found
  | cons entry later inductionHypothesis =>
      obtain ⟨title, first⟩ := entry
      rw [List.lookup_cons] at found
      split at found
      · rename_i same
        injection found with found
        subst found
        rw [eq_of_beq same]
        exact List.mem_cons_self
      · exact List.mem_cons_of_mem _ (inductionHypothesis found)

/-- Dispatch keeps every property that its table has. -/
theorem dispatch_of_table
    {dispatcher : Dispatcher}
    {cmd : Command}
    (holds : Bytes → Program RespValue → Prop)
    (table :
      ∀ entry ∈ dispatcher.handlers,
        entry.1 = cmd.name → holds entry.1 (entry.2 cmd))
    (registered : dispatcher.isRegistered cmd.name = true) :
    holds cmd.name (dispatcher.dispatch cmd) := by
  unfold dispatch
  obtain ⟨handler, found⟩ := Option.isSome_iff_exists.mp registered
  rw [found]
  exact table _ (mem_of_lookup found) rfl

/-- Only PUBLISH depends on the broker. -/
theorem dispatch_withBroker
    {cmd : Command}
    (other : cmd.name ≠ ascii "PUBLISH")
    (withBroker : Bool) :
    (makeDefault withBroker).dispatch cmd =
      (makeDefault false).dispatch cmd := by
  cases withBroker with
  | false =>
      rfl
  | true =>
      have notListed : registerPubsub.lookup cmd.name = none := by
        have differs : (cmd.name == ascii "PUBLISH") = false :=
          beq_eq_false_iff_ne.mpr other
        rw [registerPubsub, List.lookup_cons, differs]
        rfl
      simp only [dispatch, makeDefault, if_true, Bool.false_eq_true,
        if_false, List.append_nil, List.lookup_append, notListed,
        Option.or_none]

/-- A name without a handler is refused. -/
theorem dispatch_of_not_registered
    {dispatcher : Dispatcher}
    {cmd : Command}
    (missing : dispatcher.isRegistered cmd.name = false) :
    dispatcher.dispatch cmd = pure (unknownCommand cmd.name) := by
  unfold dispatch
  have nothing : dispatcher.handlers.lookup cmd.name = none := by
    simpa [isRegistered] using missing
  rw [nothing]

@[simp] theorem lineSafe_unknownCommand_iff
    {name : Bytes} :
    (unknownCommand name).LineSafe ↔ CrlfFree name :=
  crlfFree_quoted_iff (by decide) (by decide) (by decide)

end Dispatcher

end Vortek
