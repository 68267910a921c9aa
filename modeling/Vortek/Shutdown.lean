import Vortek.ServerLifecycle

namespace Vortek

/-!
# The end of a server

When `Server::run` has returned, `main` destroys the server and its `io_context`
first.  That drops every operation that is outstanding and every task that is
posted, without calling them, and with them the pointers that they hold.  A
connection is destroyed when its last handler is.

The callbacks that the broker stores are not dropped then: the broker lives
longer than the server.  So the connections that outlive the `io_context` of
their sockets are those with a subscription.
-/

/-- The connection without the operations on its socket. -/
def Session.abandon (session : Session) : Session :=
  { session with reads := 0, writes := [], waits := 0 }

namespace EventLoop

/-- The handlers of a connection are destroyed without being called. -/
def dropHandlers
    (loop : EventLoop)
    (id : Nat)
    (session : Session) :
    EventLoop :=
  { loop with
    server :=
      { loop.server with
        backend :=
          { loop.server.backend with
            posted :=
              loop.server.backend.posted.filter fun delivery =>
                delivery.write.connection ≠ id } }
    sessions := loop.sessions.insert id session.abandon }

/-- The last handler of a connection is destroyed. -/
def drop (loop : EventLoop) (id : Nat) : EventLoop :=
  match loop.sessions.lookup id with
  | none => loop
  | some session => (loop.dropHandlers id session).release id

/-- `io_context` is destroyed; connections lose their handlers in some order. -/
def shutDown (loop : EventLoop) (order : List Nat) : EventLoop :=
  order.foldl drop loop

section Dropping

variable {loop : EventLoop} {id : Nat} {session : Session}

theorem Consistent.dropHandlers
    (consistent : loop.Consistent)
    (found : loop.sessions.lookup id = some session) :
    (loop.dropHandlers id session).Consistent := by
  refine ⟨consistent.broker, ?_, ?_, ?_, ?_, ?_⟩
  · intro other one inserted
    rcases lookup_insert_cases inserted with ⟨rfl, rfl⟩ | ⟨-, earlier⟩
    · exact consistent.own _ session found
    · exact consistent.own other one earlier
  · intro other one inserted channel
    rcases lookup_insert_cases inserted with ⟨rfl, rfl⟩ | ⟨-, earlier⟩
    · exact consistent.joined _ session found channel
    · exact consistent.joined other one earlier channel
  · intro pair listed
    exact (AList.mem_insert _).mpr (Or.inr (consistent.live pair listed))
  · intro delivery member
    exact (AList.mem_insert _).mpr
      (Or.inr (consistent.addressed delivery (List.mem_of_mem_filter member)))
  · exact consistent.counted.trans (congrArg toInt64
      (length_keys_insert_of_mem (mem_of_lookup found) _).symm)

/-- Without handlers a connection is pointed to by the broker only. -/
theorem Consistent.isHeld_dropHandlers
    (consistent : loop.Consistent)
    (found : loop.sessions.lookup id = some session) :
    (loop.dropHandlers id session).isHeld id session.abandon = true ↔
      ∃ channel, (channel, id) ∈ loop.subscriptions := by
  have idle :
      (loop.dropHandlers id session).isBusy id session.abandon = false := by
    simp [isBusy, EventLoop.dropHandlers, Session.abandon, Session.isPending]
  rw [(consistent.dropHandlers found).isHeld_iff, idle]
  simp only [Bool.false_eq_true, false_or]
  rfl

/-- What is left of a loop in which some connections have been dropped. -/
structure Left
    (loop : EventLoop)
    (dropped : List Nat)
    (left : EventLoop) :
    Prop where
  consistent : left.Consistent
  history : left.history = loop.history
  broker : left.server.backend.broker = loop.server.backend.broker
  remaining :
    ∀ id,
      id ∈ left.sessions ↔
        id ∈ loop.sessions ∧
          (id ∈ dropped → ∃ channel, (channel, id) ∈ loop.subscriptions)

theorem Left.trans
    {middle last : EventLoop}
    {dropped more : List Nat}
    (first : loop.Left dropped middle)
    (second : middle.Left more last) :
    loop.Left (dropped ++ more) last := by
  have subscriptions : middle.subscriptions = loop.subscriptions :=
    congrArg Happening.subscriptions first.history
  refine ⟨second.consistent, second.history.trans first.history,
    second.broker.trans first.broker, fun one => ?_⟩
  rw [second.remaining, first.remaining, subscriptions, and_assoc,
    List.mem_append, or_imp]

/-- A connection that loses its handlers is left if it is subscribed. -/
theorem Consistent.left_drop
    (consistent : loop.Consistent)
    (id : Nat) :
    loop.Left [id] (loop.drop id) := by
  unfold drop
  cases found : loop.sessions.lookup id with
  | none =>
      have gone := AList.lookup_eq_none.mp found
      refine ⟨consistent, rfl, rfl, fun one => ?_⟩
      refine iff_self_and.mpr fun there same => ?_
      rw [List.mem_singleton.mp same] at there
      exact absurd there gone
  | some session =>
      have after := consistent.dropHandlers found
      have held := consistent.isHeld_dropHandlers found
      have there := mem_of_lookup found
      have inserted :
          (loop.dropHandlers id session).sessions.lookup id =
            some session.abandon :=
        AList.lookup_insert _
      dsimp only
      rcases (loop.dropHandlers id session).release_cases id with
        ⟨same, kept⟩ | ⟨one, known, lost, gone⟩
      · rw [same]
        refine ⟨after, rfl, rfl, fun other => ?_⟩
        have subscribed := held.mp (kept _ inserted)
        rw [EventLoop.dropHandlers, AList.mem_insert]
        constructor
        · rintro (rfl | before)
          · exact ⟨there, fun _ => subscribed⟩
          · exact ⟨before, fun same =>
              List.mem_singleton.mp same ▸ subscribed⟩
        · exact fun before => Or.inr before.1
      · have same : one = session.abandon :=
          Option.some_injective _ (known.symm.trans inserted)
        subst same
        have free :
            ¬∃ channel, (channel, id) ∈ loop.subscriptions := by
          rw [← held, lost]
          exact Bool.false_ne_true
        have released := after.release id
        rw [gone] at released ⊢
        refine ⟨released, rfl, after.broker_destroy known lost,
          fun other => ?_⟩
        rw [destroy, AList.mem_erase, EventLoop.dropHandlers,
          AList.mem_insert]
        constructor
        · rintro ⟨different, same | before⟩
          · exact absurd same different
          · exact ⟨before, fun same =>
              absurd (List.mem_singleton.mp same) different⟩
        · rintro ⟨before, subscribed⟩
          refine ⟨?_, Or.inr before⟩
          rintro rfl
          exact free (subscribed List.mem_cons_self)

theorem Consistent.left_shutDown
    (consistent : loop.Consistent)
    (order : List Nat) :
    loop.Left order (loop.shutDown order) := by
  induction order generalizing loop with
  | nil =>
      exact ⟨consistent, rfl, rfl, fun one =>
        iff_self_and.mpr fun _ nothing =>
          absurd nothing List.not_mem_nil⟩
  | cons id later inductionHypothesis =>
      have first := consistent.left_drop id
      exact first.trans (inductionHypothesis first.consistent)

end Dropping

end EventLoop

/--
When a server is destroyed, whenever and however its loop has ended and in
whatever order the handlers of its connections are dropped, exactly the
connections with a subscription outlive it, with the callbacks that the broker
stores for them, and they are still counted.
-/
theorem Process.subscribers_outlive_server
    (reserve : Reserve)
    (around : Surroundings)
    (cfg : Config)
    (events : List ProcessEvent)
    (order : List Nat)
    (all :
      ∀ id ∈
          ((launch reserve around cfg).after reserve events).loop.sessions,
        id ∈ order) :
    let loop := ((launch reserve around cfg).after reserve events).loop
    let left := loop.shutDown order
    (∀ id,
      id ∈ left.sessions ↔
        ∃ channel, (channel, id) ∈ loop.subscriptions) ∧
      left.server.backend.broker = loop.server.backend.broker ∧
      left.server.backend.stats.connectedClients =
        toInt64 left.sessions.keys.length := by
  intro loop left
  have consistent : loop.Consistent :=
    ((orderly_launch around cfg).after events).sound.consistent
  have remains : loop.Left order left := consistent.left_shutDown order
  refine ⟨fun id => ?_, remains.broker, remains.consistent.counted⟩
  rw [remains.remaining]
  constructor
  · rintro ⟨there, dropped⟩
    exact dropped (all id there)
  · rintro ⟨channel, listed⟩
    exact ⟨consistent.live _ listed, fun _ => ⟨channel, listed⟩⟩

/-- One of two clients is subscribed when a signal arrives. -/
theorem Process.subscribers_outlive_server_signalled :
    let around : Surroundings :=
      ⟨fun _ => .error [], fun _ => none, 0, fun _ => 0, fun _ => true⟩
    let events : List ProcessEvent :=
      [.acceptDone (.socket 1 true), .acceptDone (.socket 2 true),
        .complete 1
          (.readDone (fun _ => 5)
            (AofPersistence.wire [⟨ascii "SUBSCRIBE", [ascii "c"]⟩])),
        .signal .sigterm, .pollDone .elapsed]
    let process :=
      (launch (fun _ => none) around {}).after (fun _ => none) events
    process.ending = some .stopped ∧
      ∀ id,
        id ∈ (process.loop.shutDown [2, 1]).sessions ↔
          ∃ channel, (channel, id) ∈ process.loop.subscriptions := by
  intro around events process
  exact ⟨by decide +kernel,
    (subscribers_outlive_server (fun _ => none) around {} events [2, 1]
      (by decide +kernel)).1⟩

end Vortek
