import Vortek.PubSubTurns

namespace Vortek

open IncrementalDecoder Multicast

/-!
# The history of the subscriptions

A history lists the connections that were accepted and the commands that were
answered, in the order in which the event loop ran them.  It determines who is
subscribed to what, and what each connection has been sent since it was
accepted.

A read extends the history by the commands it answers.  `Turn.Tracks` says that
the state follows: both sides of the subscriptions, and the deliveries that are
posted to the event loop.
-/

/-- Something that the event loop has done. -/
inductive Happening where
  | accepted (id : Nat)
  | answered (id : Nat) (cmd : Command) (replies : List RespValue)

namespace Happening

/-- What a happening is for the groups that the channels are. -/
def operations : Happening → List (Operation Bytes Nat Bytes)
  | .accepted id => [.enter id]
  | .answered id cmd replies => operationsOf id (cmd, replies)

/-- The operations of a history. -/
def operationsAlong (history : List Happening) :
    List (Operation Bytes Nat Bytes) :=
  history.flatMap operations

/-- Who is subscribed to what after a history. -/
def subscriptions (history : List Happening) : Finset (Bytes × Nat) :=
  relation (operationsAlong history)

/-- What a connection has been sent since it was accepted. -/
def sentTo (id : Nat) (history : List Happening) :
    List (Nat × Bytes × Bytes) :=
  received id (operationsAlong history)

/-- A PUBLISH that was answered without an error counts the subscribers. -/
def Counts (history : List Happening) : Prop :=
  ∀ before after id channel message reply,
    history =
      before ++
        .answered id ⟨ascii "PUBLISH", [channel, message]⟩ [reply] ::
          after →
    reply.isError = false →
    reply =
      .integer
        (toInt64 (audience (subscriptions before) channel).card)

section Extending

variable {history more : List Happening}

theorem operationsAlong_append :
    operationsAlong (history ++ more) =
      operationsAlong history ++ operationsAlong more :=
  List.flatMap_append

theorem subscriptions_append :
    subscriptions (history ++ more) =
      relationFrom (subscriptions history) (operationsAlong more) := by
  rw [subscriptions, operationsAlong_append, relation_append]
  rfl

/-- A publication is sent to those who are subscribed. -/
theorem map_sentTo_send
    {last : Happening}
    {channel message : Bytes}
    (sends : last.operations = [.send channel message])
    (history : List Happening)
    (member : Nat) :
    (sentTo member (history ++ [last])).map Prod.snd =
      (sentTo member history).map Prod.snd ++
        if (channel, member) ∈ subscriptions history then
          [(channel, message)]
        else
          [] := by
  have single : operationsAlong [last] = [.send channel message] := by
    rw [operationsAlong, List.flatMap_singleton, sends]
  rw [sentTo, operationsAlong_append, single, received_concat,
    Operation.deliver, ← subscriptions, ← sentTo]
  split
  · rw [List.map_append]
    rfl
  · rw [List.append_nil]

/-- What is said of a history by its last happening. -/
theorem counts_append
    (counts : Counts history)
    {last : Happening}
    (correct :
      ∀ id channel message reply,
        last =
          .answered id ⟨ascii "PUBLISH", [channel, message]⟩ [reply] →
        reply.isError = false →
        reply =
          .integer
            (toInt64 (audience (subscriptions history) channel).card)) :
    Counts (history ++ [last]) := by
  intro before after id channel message reply split fine
  rcases List.eq_nil_or_concat after with rfl | ⟨rest, final, rfl⟩
  · obtain ⟨same, here⟩ := List.append_inj' split rfl
    subst same
    exact correct id channel message reply
      (List.cons.inj here).1 fine
  · rw [List.concat_eq_append, ← List.cons_append, ← List.append_assoc]
      at split
    obtain ⟨earlier, -⟩ := List.append_inj' split rfl
    exact counts before rest id channel message reply earlier fine

/-- Where nothing is sent there is nothing to count. -/
theorem counts_append_of_quiet
    (counts : Counts history)
    (quiet : ∀ operation ∈ operationsAlong more, operation.Quiet) :
    Counts (history ++ more) := by
  induction more using List.reverseRecOn with
  | nil =>
      rwa [List.append_nil]
  | append_singleton more last inductionHypothesis =>
      rw [operationsAlong_append] at quiet
      obtain ⟨earlier, silent⟩ := List.forall_mem_append.mp quiet
      rw [← List.append_assoc]
      refine counts_append (inductionHypothesis earlier) ?_
      rintro id channel message reply rfl fine
      refine absurd (silent (.send channel message) ?_) not_false
      simp only [operationsAlong, List.flatMap_singleton, operations,
        operationsOf, List.any_cons, fine, List.any_nil]
      exact List.mem_cons_self

end Extending

end Happening

/-- The deliveries for one connection, as channels and texts. -/
def addressedTo (id : Nat) (posted : List Delivery) :
    List (Bytes × Bytes) :=
  (posted.filter fun delivery => delivery.write.connection = id).map
    fun delivery => (delivery.write.channel, delivery.message)

theorem addressedTo_append
    (id : Nat)
    (posted more : List Delivery) :
    addressedTo id (posted ++ more) =
      addressedTo id posted ++ addressedTo id more := by
  simp [addressedTo]

theorem addressedTo_cons
    (id : Nat)
    (delivery : Delivery)
    (later : List Delivery) :
    addressedTo id (delivery :: later) =
      if delivery.write.connection = id then
        (delivery.write.channel, delivery.message) :: addressedTo id later
      else
        addressedTo id later := by
  by_cases own : delivery.write.connection = id
  · simp [addressedTo, own]
  · simp [addressedTo, own]

/-- A message to distinct connections reaches each of them once. -/
theorem addressedTo_members
    {members : List Nat}
    (distinct : members.Nodup)
    (id : Nat)
    (channel message : Bytes) :
    addressedTo id (members.map fun one => ⟨⟨one, channel⟩, message⟩) =
      if id ∈ members then [(channel, message)] else [] := by
  induction members with
  | nil =>
      rfl
  | cons first later inductionHypothesis =>
      obtain ⟨once, rest⟩ := List.nodup_cons.mp distinct
      rw [List.map_cons, addressedTo_cons, inductionHypothesis rest]
      by_cases same : first = id
      · subst same
        simp [once]
      · simp [same, Ne.symm same]

namespace Turn

/-- What a turn adds to the history. -/
def happenings (turn : Turn) : List Happening :=
  turn.answered.map fun answer =>
    .answered turn.connection.id answer.1 answer.2

/-- The state of a turn follows the history that the turn extends. -/
structure Tracks
    (history : List Happening)
    (server : Server)
    (id : Nat)
    (turn : Turn) :
    Prop where
  own : turn.connection.id = id
  agrees :
    turn.Agrees (Happening.subscriptions (history ++ turn.happenings))
  others :
    ∀ channel other,
      other ≠ id →
      ((channel, other) ∈
          Happening.subscriptions (history ++ turn.happenings) ↔
        (channel, other) ∈ Happening.subscriptions history)
  clients :
    turn.server.backend.stats.connectedClients =
      server.backend.stats.connectedClients
  counts :
    Happening.Counts history →
    Happening.Counts (history ++ turn.happenings)
  posted :
    ∃ sent,
      turn.server.backend.posted = server.backend.posted ++ sent ∧
      (∀ delivery ∈ sent,
        delivery.write.connection = id ∨
          (delivery.write.channel, delivery.write.connection) ∈
            Happening.subscriptions history) ∧
      ∀ member,
        (Happening.sentTo member (history ++ turn.happenings)).map
            Prod.snd =
          (Happening.sentTo member history).map Prod.snd ++
            addressedTo member sent

section Tracking

variable {history : List Happening} {server : Server} {id : Nat}
variable {turn : Turn}

theorem operationsAlong_map_answered
    (id : Nat)
    (answered : List (Command × List RespValue)) :
    Happening.operationsAlong
        (answered.map fun answer => .answered id answer.1 answer.2) =
      answered.flatMap (operationsOf id) := by
  rw [Happening.operationsAlong, List.flatMap_map]
  rfl

theorem execute_clients
    (reserve : Reserve)
    (now : TimePoint)
    (turn : Turn)
    (cmd : Command) :
    (turn.execute reserve now
        cmd).state.server.backend.stats.connectedClients =
      turn.server.backend.stats.connectedClients := by
  unfold execute
  cases logs : turn.server.logWrite reserve cmd with
  | error exception =>
      rfl
  | ok logged =>
      obtain ⟨-, -, clients⟩ := logged.backend.answer_frame now cmd
      rw [Server.backend_of_logWrite logs] at clients
      simp only [Server.dispatch, Server.backend_of_logWrite logs]
      split <;> exact clients

/-- Serving a value does not touch the count of clients. -/
theorem serve_clients
    (reserve : Reserve)
    (clock : Nat → TimePoint)
    (turn : Turn)
    (value : RespValue) :
    (turn.serve reserve clock
        value).state.server.backend.stats.connectedClients =
      turn.server.backend.stats.connectedClients := by
  unfold serve
  split
  · rfl
  · split
    · rfl
    · split
      · rfl
      · split
        · rfl
        · split
          · unfold unsubscribe
            split <;> rfl
          · exact execute_clients reserve _ turn _

/-- Only these parts of a turn matter. -/
theorem Tracks.congr
    {next : Turn}
    (tracks : turn.Tracks history server id)
    (own : next.connection.id = turn.connection.id)
    (joined :
      next.connection.subscribedChannels =
        turn.connection.subscribedChannels)
    (serves : next.server = turn.server)
    (answered : next.answered = turn.answered) :
    next.Tracks history server id := by
  have same : next.happenings = turn.happenings := by
    rw [happenings, happenings, answered, own]
  have agrees :
      next.Agrees
        (Happening.subscriptions (history ++ turn.happenings)) := by
    unfold Agrees
    rw [own, joined, serves]
    exact tracks.agrees
  refine ⟨own.trans tracks.own, ?_, ?_, ?_, ?_, ?_⟩
  · rw [same]
    exact agrees
  · rw [same]
    exact tracks.others
  · rw [serves]
    exact tracks.clients
  · rw [same]
    exact tracks.counts
  · rw [same, serves]
    exact tracks.posted

variable {next : Turn}

/-- The history after a turn that has answered more. -/
theorem append_happenings
    {more : List (Command × List RespValue)}
    (own : next.connection.id = turn.connection.id)
    (answered : next.answered = turn.answered ++ more) :
    history ++ next.happenings =
      history ++ turn.happenings ++
        more.map fun answer =>
          .answered turn.connection.id answer.1 answer.2 := by
  rw [happenings, answered, List.map_append, own, List.append_assoc]
  rfl

/-- A connection that changes its own subscriptions. -/
theorem Tracks.resubscribe
    {more : List (Command × List RespValue)}
    {notices : List Notice}
    {broker : PubSubBroker}
    (tracks : turn.Tracks history server id)
    (own : next.connection.id = turn.connection.id)
    (clients :
      next.server.backend.stats.connectedClients =
        turn.server.backend.stats.connectedClients)
    (answered : next.answered = turn.answered ++ more)
    (serves : next.server.backend.broker = some broker)
    (changes :
      Resubscribes turn.connection.id
        (Happening.subscriptions (history ++ turn.happenings))
        (more.flatMap (operationsOf turn.connection.id)) notices
        next.connection.subscribedChannels broker)
    (posted : next.server.backend.posted = turn.server.backend.posted) :
    next.Tracks history server id := by
  have extended : history ++ next.happenings = _ :=
    append_happenings own answered
  have operations := operationsAlong_map_answered turn.connection.id more
  have related :
      Happening.subscriptions (history ++ next.happenings) =
        relationFrom
          (Happening.subscriptions (history ++ turn.happenings))
          (more.flatMap (operationsOf turn.connection.id)) := by
    rw [extended, Happening.subscriptions_append, operations]
  obtain ⟨sent, posts, reach, sees⟩ := tracks.posted
  refine ⟨own.trans tracks.own, ⟨broker, serves, ?_⟩, ?_,
    clients.trans tracks.clients, fun counts => ?_,
    sent, posted.trans posts, reach, fun member => ?_⟩
  · rw [related, own]
    exact changes.agree
  · intro channel other differs
    rw [related]
    exact (changes.others channel other
      (by rw [tracks.own]; exact differs)).trans
        (tracks.others channel other differs)
  · rw [extended]
    refine Happening.counts_append_of_quiet (tracks.counts counts) ?_
    rw [operations]
    exact changes.quiet
  · rw [← sees member, extended, Happening.sentTo,
      Happening.operationsAlong_append, operations,
      received_append_of_quiet changes.quiet]
    rfl

/-- A connection that publishes. -/
theorem Tracks.publish
    {channel message : Bytes}
    {members : List Nat}
    (tracks : turn.Tracks history server id)
    (own : next.connection.id = turn.connection.id)
    (clients :
      next.server.backend.stats.connectedClients =
        turn.server.backend.stats.connectedClients)
    (answered :
      next.answered =
        turn.answered ++
          [(⟨ascii "PUBLISH", [channel, message]⟩,
            [.integer (toInt64 (audience (Happening.subscriptions
              (history ++ turn.happenings)) channel).card)])])
    (serves : next.server.backend.broker = turn.server.backend.broker)
    (joined :
      next.connection.subscribedChannels =
        turn.connection.subscribedChannels)
    (distinct : members.Nodup)
    (listed :
      ∀ one,
        one ∈ members ↔
          (channel, one) ∈
            Happening.subscriptions (history ++ turn.happenings))
    (posted :
      next.server.backend.posted =
        turn.server.backend.posted ++
          members.map fun one => ⟨⟨one, channel⟩, message⟩) :
    next.Tracks history server id := by
  have extended : history ++ next.happenings = _ :=
    append_happenings own answered
  have related :
      Happening.subscriptions (history ++ next.happenings) =
        Happening.subscriptions (history ++ turn.happenings) := by
    rw [extended, Happening.subscriptions_append]
    rfl
  obtain ⟨broker, served, agree⟩ := tracks.agrees
  obtain ⟨sent, posts, reach, sees⟩ := tracks.posted
  refine ⟨own.trans tracks.own, ⟨broker, serves.trans served, ?_⟩, ?_,
    clients.trans tracks.clients, fun counts => ?_,
    sent ++ members.map (fun one => ⟨⟨one, channel⟩, message⟩), ?_, ?_,
    fun member => ?_⟩
  · rw [related, own, joined]
    exact agree
  · rw [related]
    exact tracks.others
  · rw [extended]
    refine Happening.counts_append (tracks.counts counts) ?_
    intro publisher into text reply here _
    cases here
    rfl
  · rw [posted, posts, List.append_assoc]
  · intro delivery member
    rcases List.mem_append.mp member with earlier | now
    · exact reach delivery earlier
    · obtain ⟨one, inside, rfl⟩ := List.mem_map.mp now
      by_cases mine : one = id
      · exact Or.inl mine
      · exact Or.inr ((tracks.others channel one mine).mp
          ((listed one).mp inside))
  · rw [extended]
    refine (Happening.map_sentTo_send rfl _ member).trans ?_
    rw [sees, addressedTo_append, addressedTo_members distinct,
      List.append_assoc]
    simp only [listed]

/-- Every value that is served extends the history. -/
theorem Tracks.serve
    (tracks : turn.Tracks history server id)
    (reserve : Reserve)
    (clock : Nat → TimePoint)
    (value : RespValue) :
    (turn.serve reserve clock value).state.Tracks history server id := by
  have own :
      (turn.serve reserve clock value).state.connection.id =
        turn.connection.id :=
    (turn.serve_calls value).id
  have clients := turn.serve_clients reserve clock value
  cases serve_pubSubStep tracks.agrees reserve clock value with
  | resubscribed more notices broker answered serves changes posted calls =>
      exact tracks.resubscribe own clients answered serves changes posted
  | published channel message members answered serves joined distinct
      listed posted calls =>
      exact tracks.publish own clients answered serves joined distinct
        listed posted

end Tracking

end Turn

section Reading

variable {history : List Happening} {server : Server}

theorem Connection.tracks_begin
    (connection : Connection)
    (agrees :
      (connection.begin server).Agrees (Happening.subscriptions history)) :
    (connection.begin server).Tracks history server connection.id := by
  have nothing :
      history ++ (connection.begin server).happenings = history :=
    List.append_nil history
  refine ⟨rfl, ?_, ?_, rfl, ?_, [], ?_, ?_, ?_⟩
  · rw [nothing]
    exact agrees
  · rw [nothing]
    exact fun _ _ _ => Iff.rfl
  · rw [nothing]
    exact fun counts => counts
  · exact (List.append_nil _).symm
  · exact fun _ member => absurd member List.not_mem_nil
  · rw [nothing]
    exact fun _ => (List.append_nil _).symm

/-- A read extends the history by what it answers. -/
theorem Connection.handleData_tracks
    (connection : Connection)
    (agrees :
      (connection.begin server).Agrees (Happening.subscriptions history))
    (reserve : Reserve)
    (clock : Nat → TimePoint)
    (chunk : Bytes) :
    (connection.handleData reserve clock server chunk).Tracks history
      server connection.id := by
  have begun := connection.tracks_begin agrees
  rw [handleData_eq_dataTurn]
  split
  · exact begun.congr rfl rfl rfl rfl
  · have looped :=
      dataTurn_invariant reserve clock
        (fun turn _ => turn.Tracks history server connection.id)
        (fun turn _ value tracks => tracks.serve reserve clock value)
        (fun turn _ _ _ _ tracks => tracks.congr rfl rfl rfl rfl)
        begun chunk
    obtain ⟨transport, same⟩ :=
      (connection.dataTurn reserve clock server chunk).finish_connection_eq
    refine looped.congr ?_ ?_ (Turn.finish_server _)
      (Turn.finish_answered _)
    · rw [same]
    · rw [same]

end Reading

end Vortek
