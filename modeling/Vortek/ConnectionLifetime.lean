import Vortek.EventLoop

namespace Vortek

open Multicast

/-!
# Subscriptions and the lifetime of connections

In every state of the event loop the broker and the connections hold the same
subscriptions.

A closed connection whose tasks have all run should be gone: out of the broker,
out of the replies of PUBLISH and out of the count of clients.  But the broker
itself points to its subscribers, and only the destructor removes these
pointers.  A connection that is closed while it is subscribed is never
destroyed; all others are.
-/

namespace EventLoop

/-- The broker is a relation, and the connections agree with it. -/
theorem broker_and_connections_agree
    (config : ServerConfig)
    (reserve : Reserve)
    (server : Server)
    (fresh : Fresh server) :
    (∀ calls : List BrokerCall,
      let broker := BrokerCall.runAll calls
      let relation := Multicast.relation (calls.map BrokerCall.operation)
      broker.Represents relation ∧
        ∀ call : BrokerCall,
          call.AnswersAs broker relation ∧
            ∀ other,
              ¬call.ActsFor other →
              ∀ channel,
                (call.run broker).callback channel other =
                  broker.callback channel other) ∧
    ∀ events,
      let loop := (start server).run config reserve events
      ∃ broker,
        loop.server.backend.broker = some broker ∧
          ∀ id session,
            loop.sessions.lookup id = some session →
            session.connection.id = id ∧
              ∀ channel,
                channel ∈ session.connection.subscribedChannels.members ↔
                  id ∈ broker.members channel := by
  refine ⟨fun calls => ?_, fun events => ?_⟩
  · have represents := BrokerCall.represents_runAll calls
    refine ⟨represents, fun call =>
      ⟨BrokerCall.answersAs_of_represents represents call, ?_⟩⟩
    intro other uninvolved channel
    exact BrokerCall.callback_run uninvolved _ channel
  · have sound : ((start server).run config reserve events).Sound :=
      (sound_start fresh).run events
    obtain ⟨broker, serves, wired⟩ := sound.consistent.broker
    refine ⟨broker, serves, fun id session found => ?_⟩
    refine ⟨sound.consistent.own id session found, fun channel => ?_⟩
    rw [wired.listed]
    exact sound.consistent.joined id session found channel

/-- Two channels joined, one of them left again. -/
theorem broker_and_connections_agree_two_channels :
    let server : Server :=
      ⟨{ Backend.initial with broker := some PubSubBroker.empty }, none⟩
    let config : ServerConfig := ⟨[], 1000, 0, 10, 1000⟩
    let commands : List Command :=
      [⟨ascii "SUBSCRIBE", [ascii "a", ascii "b"]⟩,
        ⟨ascii "UNSUBSCRIBE", [ascii "a"]⟩]
    let events : List LoopEvent :=
      [.accept 7,
        .complete 7 (.readDone (fun _ => 0) (AofPersistence.wire commands))]
    let loop := (start server).run config (fun _ => none) events
    (loop.sessions.lookup 7).map
          (fun session => session.connection.subscribedChannels.members) =
        some [ascii "b"] ∧
      ∃ broker,
        loop.server.backend.broker = some broker ∧
          ∀ id session,
            loop.sessions.lookup id = some session →
            session.connection.id = id ∧
              ∀ channel,
                channel ∈ session.connection.subscribedChannels.members ↔
                  id ∈ broker.members channel := by
  intro server config commands events
  have fresh : Fresh server := ⟨rfl, rfl, rfl⟩
  exact ⟨by decide +kernel,
    (broker_and_connections_agree config (fun _ => none) server
      fresh).2 events⟩

/-- The connection is gone, or closed with all its tasks run. -/
def Finished (loop : EventLoop) (id : Nat) : Prop :=
  ∀ session,
    loop.sessions.lookup id = some session →
    session.connection.transport.socketOpen = false ∧
      loop.isBusy id session = false

/-- No channel lists the connection, and neither count includes it. -/
structure Released (loop : EventLoop) (id : Nat) : Prop where
  unlisted :
    ∀ broker,
      loop.server.backend.broker = some broker →
      ∀ channel, id ∉ broker.members channel
  published :
    ∀ broker,
      loop.server.backend.broker = some broker →
      ∀ channel message,
        (broker.publish channel message).1 =
          toInt64
            ((broker.members channel).filter fun one => one ≠ id).length
  clients :
    loop.server.backend.stats.connectedClients =
      toInt64 (loop.sessions.keys.filter fun one => one ≠ id).length

/-- The connection, if it is still there, has no subscription. -/
def Unsubscribed (loop : EventLoop) (id : Nat) : Prop :=
  ∀ session,
    loop.sessions.lookup id = some session →
    session.connection.subscribedChannels.members = []

/-- A connection that has been destroyed is in no list and no count. -/
theorem released_of_not_mem
    {loop : EventLoop}
    {id : Nat}
    (consistent : loop.Consistent)
    (gone : id ∉ loop.sessions) :
    loop.Released id := by
  obtain ⟨broker, serves, wired⟩ := consistent.broker
  have unlisted (channel : Bytes) : id ∉ broker.members channel := by
    intro member
    exact gone (consistent.live _ ((wired.listed channel id).mp member))
  have others (ids : List Nat) (absent : id ∉ ids) :
      (ids.filter fun one => one ≠ id) = ids := by
    refine List.filter_eq_self.mpr fun one member => ?_
    exact decide_eq_true fun same => absent (same ▸ member)
  refine ⟨fun one found => ?_, fun one found channel message => ?_, ?_⟩
  · rw [Option.some_injective _ (found.symm.trans serves)]
    exact unlisted
  · rw [Option.some_injective _ (found.symm.trans serves),
      PubSubBroker.publish_eq, others _ (unlisted channel),
      PubSubBroker.members, List.length_map]
  · rw [others _ (mt AList.mem_keys.mpr gone)]
    exact consistent.counted

/-- A connection without tasks and subscriptions has been destroyed. -/
theorem Sound.not_mem_of_finished
    {loop : EventLoop}
    {id : Nat}
    (sound : loop.Sound)
    (finished : loop.Finished id)
    (unsubscribed : loop.Unsubscribed id) :
    id ∉ loop.sessions := by
  intro member
  obtain ⟨session, found⟩ :=
    Option.isSome_iff_exists.mp (AList.lookup_isSome.mpr member)
  obtain ⟨-, idle⟩ := finished session found
  have held := sound.held id session found
  rw [sound.consistent.isHeld_iff, idle] at held
  obtain ⟨channel, listed⟩ := held.resolve_left Bool.false_ne_true
  have joined :=
    (sound.consistent.joined id session found channel).mpr listed
  rw [unsubscribed session found] at joined
  exact List.not_mem_nil joined

/-- The broker lists a connection under every channel it has joined. -/
theorem Released.unsubscribed
    {loop : EventLoop}
    {id : Nat}
    (released : loop.Released id)
    (consistent : loop.Consistent) :
    loop.Unsubscribed id := by
  intro session found
  obtain ⟨broker, serves, wired⟩ := consistent.broker
  refine List.eq_nil_iff_forall_not_mem.mpr fun channel joined => ?_
  have listed := (consistent.joined id session found channel).mp joined
  exact released.unlisted broker serves channel
    ((wired.listed channel id).mpr listed)

/--
In every state that a server can reach, a connection that is closed with all its
tasks run is released exactly if it has left all its channels.
-/
theorem finished_connections_released
    (config : ServerConfig)
    (reserve : Reserve)
    (server : Server)
    (fresh : Fresh server)
    (events : List LoopEvent)
    (id : Nat)
    (finished : ((start server).run config reserve events).Finished id) :
    ((start server).run config reserve events).Released id ↔
      ((start server).run config reserve events).Unsubscribed id := by
  have sound : ((start server).run config reserve events).Sound :=
    (sound_start fresh).run events
  constructor
  · intro released
    exact released.unsubscribed sound.consistent
  · intro unsubscribed
    exact released_of_not_mem sound.consistent
      (sound.not_mem_of_finished finished unsubscribed)

/-- A client that unsubscribes before it disconnects is released. -/
theorem finished_connections_released_unsubscribed :
    let server : Server :=
      ⟨{ Backend.initial with broker := some PubSubBroker.empty }, none⟩
    let config : ServerConfig := ⟨[], 1048576, 300, 10000, 1048576⟩
    let commands : List Command :=
      [⟨ascii "SUBSCRIBE", [ascii "c"]⟩, ⟨ascii "UNSUBSCRIBE", []⟩]
    let events : List LoopEvent :=
      [.accept 7,
        .complete 7 (.readDone (fun _ => 0) (AofPersistence.wire commands)),
        .complete 7 .writeDone, .complete 7 .writeDone,
        .complete 7 .readFailed, .complete 7 .waitAborted,
        .complete 7 .waitAborted, .complete 7 .waitAborted]
    let loop := (start server).run config (fun _ => none) events
    Fresh server ∧ loop.Finished 7 ∧ loop.Released 7 := by
  intro server config commands events loop
  have fresh : Fresh server := ⟨rfl, rfl, rfl⟩
  have gone : loop.sessions.lookup 7 = none := by
    refine Option.isNone_iff_eq_none.mp ?_
    decide +kernel
  have finished : loop.Finished 7 := by
    intro session found
    rw [gone] at found
    cases found
  refine ⟨fresh, finished, ?_⟩
  refine (finished_connections_released config (fun _ => none) server
    fresh events 7 finished).mpr ?_
  intro session found
  rw [gone] at found
  cases found

/-- A client that disconnects while it is subscribed stays in all counts. -/
theorem subscribed_connection_not_released :
    let server : Server :=
      ⟨{ Backend.initial with broker := some PubSubBroker.empty }, none⟩
    let config : ServerConfig := ⟨[], 1048576, 300, 10000, 1048576⟩
    let commands : List Command := [⟨ascii "SUBSCRIBE", [ascii "c"]⟩]
    let events : List LoopEvent :=
      [.accept 7,
        .complete 7 (.readDone (fun _ => 0) (AofPersistence.wire commands)),
        .complete 7 .writeDone, .complete 7 .readFailed,
        .complete 7 .waitAborted, .complete 7 .waitAborted,
        .complete 7 .waitAborted]
    let loop := (start server).run config (fun _ => none) events
    Fresh server ∧ loop.Finished 7 ∧ ¬loop.Released 7 := by
  intro server config commands events loop
  have finished :
      (loop.sessions.lookup 7).all (fun session =>
        !session.connection.transport.socketOpen &&
          !loop.isBusy 7 session) = true := by
    decide +kernel
  have counted :
      loop.server.backend.stats.connectedClients ≠
        toInt64 (loop.sessions.keys.filter fun one => one ≠ 7).length := by
    decide +kernel
  refine ⟨⟨rfl, rfl, rfl⟩, fun session found => ?_, fun released =>
    counted released.clients⟩
  rw [found] at finished
  simpa using finished

end EventLoop

end Vortek
