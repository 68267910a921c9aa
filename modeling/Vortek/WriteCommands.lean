import Vortek.DispatchSafety

namespace Vortek

/-!
# The commands that write

Sixteen commands of the handler table can change the store.  Four of them are
asked to set or remove a key or its deadline; the other twelve update a value in
place.  A property of what dispatch runs for a logged command follows from the
sixteen entries.
-/

namespace Dispatcher

/-- The commands that set or remove a whole key or its deadline. -/
def wholeKeyHandlers : List (Bytes × Handler) :=
  [(ascii "DEL", cmdDel),
    (ascii "EXPIRE", cmdExpire),
    (ascii "PERSIST", cmdPersist),
    (ascii "SET", cmdSet)]

/-- The commands that update a value in place. -/
def inPlaceHandlers : List (Bytes × Handler) :=
  [(ascii "INCR", cmdIncr),
    (ascii "DECR", cmdDecr),
    (ascii "INCRBY", cmdIncrby),
    (ascii "DECRBY", cmdDecrby),
    (ascii "LPUSH", cmdLpush),
    (ascii "RPUSH", cmdRpush),
    (ascii "LPOP", cmdLpop),
    (ascii "RPOP", cmdRpop),
    (ascii "SADD", cmdSadd),
    (ascii "SREM", cmdSrem),
    (ascii "HSET", cmdHset),
    (ascii "HDEL", cmdHdel)]

/-- The handlers of all logged commands. -/
def writeHandlers : List (Bytes × Handler) :=
  wholeKeyHandlers ++ inPlaceHandlers

/-- The logged names of the table are the listed ones. -/
theorem filter_isWriteCommand
    (withBroker : Bool) :
    ((makeDefault withBroker).handlers.filter fun entry =>
      AofPersistence.isWriteCommand entry.1) =
      writeHandlers := by
  cases withBroker <;> rfl

/-- Every logged name is registered. -/
theorem isRegistered_of_write
    (withBroker : Bool)
    {name : Bytes}
    (write : AofPersistence.isWriteCommand name = true) :
    (makeDefault withBroker).isRegistered name = true := by
  have listed : name ∈ AofPersistence.writes :=
    List.contains_iff_mem.mp write
  have registered :
      ∀ title ∈ AofPersistence.writes,
        (makeDefault withBroker).isRegistered title = true := by
    cases withBroker <;> decide
  exact registered name listed

/-- What dispatch runs for a logged command is one of the listed handlers. -/
theorem dispatch_of_writeHandlers
    (withBroker : Bool)
    {cmd : Command}
    (holds : Bytes → Program RespValue → Prop)
    (table :
      ∀ entry ∈ writeHandlers,
        entry.1 = cmd.name → holds entry.1 (entry.2 cmd))
    (write : AofPersistence.isWriteCommand cmd.name = true) :
    holds cmd.name ((makeDefault withBroker).dispatch cmd) := by
  apply dispatch_of_table holds ?_ (isRegistered_of_write withBroker write)
  intro entry member same
  apply table entry ?_ same
  rw [← filter_isWriteCommand withBroker]
  exact List.mem_filter.mpr ⟨member, same ▸ write⟩

end Dispatcher

end Vortek
