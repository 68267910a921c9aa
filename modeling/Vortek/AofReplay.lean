import Vortek.ClockShift
import Vortek.Connection

namespace Vortek

/-!
# Replay reproduces the store

A run of the server is a list of events: reads on connections, passes of the
expiry sweep, and changes to the rest of the state.  A read may come from any
connection in any state, so that every interleaving of clients is such a run.

As long as no executed command attaches a deadline, the file holds the wire form
of commands that lead from the empty store to the present one, whenever they are
executed (`Reproduced`).  Every event keeps this.
-/

/-- Something that happens to a running server. -/
inductive Event where
  | read
      (connection : Connection)
      (clock : Nat → TimePoint)
      (chunk : Bytes)
  | sweep (now : TimePoint)
  | other
      (stats : ServerStats)
      (broker : Option PubSubBroker)
      (posted : List Delivery)

/-- The server after an event, and the commands dispatched by it. -/
def Server.handle
    (reserve : Reserve)
    (server : Server) :
    Event → Server × List Dispatch
  | .read connection clock chunk =>
      let turn := connection.handleData reserve clock server chunk
      (turn.server, turn.dispatched)
  | .sweep now =>
      ({ server with
        backend :=
          { server.backend with store := server.backend.store.sweep now } },
        [])
  | .other stats broker posted =>
      ({ server with
        backend := ⟨server.backend.store, stats, broker, posted⟩ }, [])

/-- The server after some events, and the commands dispatched by them. -/
def Server.run (reserve : Reserve) :
    Server → List Event → Server × List Dispatch
  | server, [] => (server, [])
  | server, event :: later =>
      let next := server.handle reserve event
      let rest := run reserve next.1 later
      (rest.1, next.2 ++ rest.2)

/-- The dispatched command attached no deadline. -/
def Dispatch.NoExpiry (dispatch : Dispatch) : Prop :=
  expirySet dispatch.now dispatch.backend.store dispatch.cmd = none

instance (dispatch : Dispatch) : Decidable dispatch.NoExpiry :=
  inferInstanceAs (Decidable (_ = _))

/--
The file holds commands that lead from any backend with an empty store to the
present store, and the store has no deadlines.
-/
structure Server.Reproduced (reserve : Reserve) (server : Server) : Prop where
  noDeadlines : server.backend.store.NoDeadlines
  logged :
    ∃ commands,
      (∀ cmd ∈ commands, AofPersistence.Loggable reserve cmd) ∧
        server.aof = some ⟨AofPersistence.wire commands⟩ ∧
        ∀ clock fresh,
          fresh.store = KvStore.empty →
          (AofPersistence.dispatchAll clock 0 fresh commands).store =
            server.backend.store

namespace Server

variable {reserve : Reserve} {server next : Server}

/-- Only the store and the file matter. -/
theorem Reproduced.congr
    (reproduced : server.Reproduced reserve)
    (store : next.backend.store = server.backend.store)
    (aof : next.aof = server.aof) :
    next.Reproduced reserve := by
  obtain ⟨noDeadlines, logged⟩ := reproduced
  constructor
  · rwa [store]
  · rwa [store, aof]

/-- A command that attaches no deadline keeps the log complete. -/
theorem Reproduced.dispatch
    {cmd : Command}
    {now : TimePoint}
    {logged : Server}
    (reproduced : server.Reproduced reserve)
    (loggable : AofPersistence.Loggable reserve cmd)
    (logs : server.logWrite reserve cmd = .ok logged)
    (noExpiry : expirySet now logged.backend.store cmd = none)
    (store :
      next.backend.store = (logged.backend.dispatch now cmd).2.store)
    (aof : next.aof = logged.aof) :
    next.Reproduced reserve := by
  obtain ⟨noDeadlines, commands, loggables, file, reaches⟩ := reproduced
  rw [logWrite_of_loggable loggable, file] at logs
  cases logs
  cases write : AofPersistence.isWriteCommand cmd.name with
  | false =>
      rw [Backend.dispatch_store_of_not_write write] at store
      rw [write] at aof
      exact ⟨store ▸ noDeadlines, commands, loggables, aof,
        store ▸ reaches⟩
  | true =>
      have again :
          ∀ (other : Backend) (later : TimePoint),
            other.store = server.backend.store →
            (other.dispatch later cmd).2.store =
                (server.backend.dispatch now cmd).2.store ∧
              (server.backend.dispatch now cmd).2.store.NoDeadlines :=
        fun other later same =>
          Backend.dispatch_of_noDeadlines write noExpiry noDeadlines same
      refine ⟨?_, commands ++ [cmd], ?_, ?_, ?_⟩
      · rw [store]
        exact (again _ now rfl).2
      · intro other member
        rcases List.mem_append.mp member with earlier | last
        · exact loggables other earlier
        · rwa [List.mem_singleton.mp last]
      · rw [aof, write]
        simp
      · intro clock fresh fromEmpty
        rw [AofPersistence.dispatchAll_concat, store]
        exact (again _ _ (reaches clock fresh fromEmpty)).1

/-- A read keeps the log complete if it attaches no deadline. -/
theorem Reproduced.read
    (reproduced : server.Reproduced reserve)
    (connection : Connection)
    (clock : Nat → TimePoint)
    (chunk : Bytes) :
    let turn := connection.handleData reserve clock server chunk
    (∀ dispatch ∈ turn.dispatched, dispatch.NoExpiry) →
      turn.server.Reproduced reserve := by
  refine Connection.handleData_invariant
    (fun server dispatched =>
      (∀ dispatch ∈ dispatched, dispatch.NoExpiry) →
        server.Reproduced reserve)
    ?_ (fun _ => reproduced) connection chunk
  intro turn value next storable step earlier noExpiry
  cases step with
  | unchanged dispatched store aof =>
      rw [dispatched] at noExpiry
      exact (earlier noExpiry).congr store aof
  | executed cmd now logged parsed logs dispatched store aof =>
      rw [dispatched, List.forall_mem_append,
        List.forall_mem_singleton] at noExpiry
      exact (earlier noExpiry.1).dispatch
        (AofPersistence.loggable_of_parseCommand storable parsed)
        logs noExpiry.2 store aof

/-- Every event keeps the log complete if it attaches no deadline. -/
theorem Reproduced.handle
    (reproduced : server.Reproduced reserve)
    (event : Event)
    (noExpiry :
      ∀ dispatch ∈ (server.handle reserve event).2, dispatch.NoExpiry) :
    (server.handle reserve event).1.Reproduced reserve := by
  cases event with
  | read connection clock chunk =>
      exact reproduced.read connection clock chunk noExpiry
  | sweep now =>
      exact reproduced.congr (reproduced.noDeadlines.sweep_eq now) rfl
  | other stats broker posted =>
      exact reproduced.congr rfl rfl

/-- The same over a whole run. -/
theorem Reproduced.run
    (reproduced : server.Reproduced reserve)
    (events : List Event)
    (noExpiry :
      ∀ dispatch ∈ (server.run reserve events).2, dispatch.NoExpiry) :
    (server.run reserve events).1.Reproduced reserve := by
  induction events generalizing server with
  | nil =>
      exact reproduced
  | cons event later inductionHypothesis =>
      rw [Server.run, List.forall_mem_append] at noExpiry
      exact inductionHypothesis (reproduced.handle event noExpiry.1)
        noExpiry.2

/-- An empty file reproduces an empty store. -/
theorem reproduced_of_empty
    (emptyStore : server.backend.store = KvStore.empty)
    (emptyFile : server.aof = some ⟨[]⟩) :
    server.Reproduced reserve := by
  constructor
  · rw [emptyStore]
    exact KvStore.noDeadlines_empty
  · refine ⟨[], by simp, emptyFile, ?_⟩
    intro clock fresh fromEmpty
    rw [emptyStore]
    exact fromEmpty

/--
In every run from an empty store and an empty file in which no command attaches
a deadline, replay of the file into an empty store gives the store of the run,
and neither has a deadline.
-/
theorem replay_reproduces_store
    (reserve : Reserve)
    (server : Server)
    (events : List Event)
    (emptyStore : server.backend.store = KvStore.empty)
    (emptyFile : server.aof = some ⟨[]⟩)
    (noExpiry :
      ∀ dispatch ∈ (server.run reserve events).2, dispatch.NoExpiry)
    (clock : Nat → TimePoint)
    (fresh : Backend)
    (freshStore : fresh.store = KvStore.empty) :
    ∃ aof,
      (server.run reserve events).1.aof = some aof ∧
        (aof.replay reserve clock fresh).backend.store =
          (server.run reserve events).1.backend.store ∧
        (server.run reserve events).1.backend.store.NoDeadlines := by
  obtain ⟨noDeadlines, commands, loggable, file, reaches⟩ :=
    (reproduced_of_empty emptyStore emptyFile).run events noExpiry
  refine ⟨_, file, ?_, noDeadlines⟩
  rw [AofPersistence.replay_wire loggable]
  exact reaches clock fresh freshStore

/-- Two clients, a counter command that throws, and a sweep. -/
theorem replay_reproduces_store_two_clients :
    let client := fun id => Connection.create id [] 1048576 1048576
    let events :=
      [Event.read (client 0) (fun _ => 5)
          (AofPersistence.wire
            [⟨ascii "LPUSH", [ascii "k", ascii "v"]⟩]),
        .sweep 6,
        .read (client 1) (fun _ => 7)
          (AofPersistence.wire [⟨ascii "INCR", [ascii "k"]⟩])]
    let server : Server := ⟨Backend.initial, some ⟨[]⟩⟩
    ∃ aof,
      (server.run (fun _ => none) events).1.aof = some aof ∧
        (aof.replay (fun _ => none) (fun _ => 100)
            Backend.initial).backend.store =
          (server.run (fun _ => none) events).1.backend.store ∧
        (server.run (fun _ => none)
          events).1.backend.store.NoDeadlines := by
  intro client events server
  exact replay_reproduces_store (fun _ => none) server events rfl rfl
    (by decide) (fun _ => 100) Backend.initial rfl

end Server

end Vortek
