import Vortek.BrokerRelation
import Vortek.DispatchSafety
import Vortek.Session

namespace Vortek

open IncrementalDecoder CallScript Multicast

/-!
# What a connection does to the subscriptions

Both sides keep the subscriptions of a connection: the broker in its rows, the
connection in its own set.  They agree on one relation (`Agree`), and every
value that a read serves is a step of that relation: the operations of the
command it answers (`operationsOf`).

A value does one of two things (`Turn.PubSubStep`).  It publishes, and posts a
message to each member of the channel; or it posts nothing and may change what
the connection itself is subscribed to, and then tells the client so.
-/

namespace Backend

/-- Commands change neither the broker nor the count of clients. -/
theorem dispatch_frame
    (now : TimePoint)
    (backend : Backend)
    (cmd : Command) :
    (backend.dispatch now cmd).2.broker = backend.broker ∧
      (backend.dispatch now cmd).2.stats = backend.stats := by
  refine (Dispatcher.dispatch_mayCall backend.broker.isSome cmd).invariant
    (fun after : Backend =>
      after.broker = backend.broker ∧ after.stats = backend.stats)
    ?_ ⟨rfl, rfl⟩
  intro call before _ same
  cases call with
  | publish channel message =>
      simp only [step]
      split
      · exact same
      · exact same
  | set | get | del | exists? | expire | ttl | persist | size
  | approxMemoryBytes | stats | uptimeSeconds =>
      exact same

/-- Counting a command changes nothing else. -/
theorem answer_frame
    (now : TimePoint)
    (backend : Backend)
    (cmd : Command) :
    (backend.answer now cmd).2.broker = backend.broker ∧
      (backend.answer now cmd).2.posted =
        (backend.dispatch now cmd).2.posted ∧
      (backend.answer now cmd).2.stats.connectedClients =
        backend.stats.connectedClients := by
  obtain ⟨broker, stats⟩ := backend.dispatch_frame now cmd
  have clients := congrArg ServerStats.connectedClients stats
  unfold answer
  split
  · rename_i result
    rw [result] at broker clients ⊢
    exact ⟨broker, rfl, clients⟩
  · rename_i result
    rw [result] at broker clients ⊢
    exact ⟨broker, rfl, clients⟩

/-- Commands other than PUBLISH post nothing. -/
theorem dispatch_posted
    {cmd : Command}
    (other : cmd.name ≠ ascii "PUBLISH")
    (now : TimePoint)
    (backend : Backend) :
    (backend.dispatch now cmd).2.posted = backend.posted := by
  refine (Dispatcher.silent_dispatch other
    backend.broker.isSome).invariant
      (fun after : Backend => after.posted = backend.posted) ?_ rfl
  intro call before silent same
  cases call with
  | publish =>
      exact silent.elim
  | set | get | del | exists? | expire | ttl | persist | size
  | approxMemoryBytes | stats | uptimeSeconds =>
      exact same

/-- PUBLISH with a broker fires the callbacks, unless its arguments are bad. -/
theorem dispatch_publish
    {backend : Backend}
    {broker : PubSubBroker}
    {cmd : Command}
    (serves : backend.broker = some broker)
    (publish : cmd.name = ascii "PUBLISH")
    (now : TimePoint) :
    (∃ channel message,
        cmd.args = [channel, message] ∧
          backend.dispatch now cmd =
            (.ok (.integer (broker.publish channel message).1),
              { backend with
                posted := backend.posted ++
                  (broker.publish channel message).2 })) ∨
      ∃ message,
        backend.dispatch now cmd = (.ok (.error message), backend) := by
  have found :
      (Dispatcher.makeDefault true).handlers.lookup cmd.name =
        some cmdPublish := by
    rw [publish]
    rfl
  simp only [dispatch, serves, Option.isSome_some, Dispatcher.dispatch,
    found, cmdPublish]
  split
  · rename_i channel message shape
    refine Or.inl ⟨channel, message, shape, ?_⟩
    simp only [exec, Script.run_invoke_bind, step, serves]
    rfl
  · exact Or.inr ⟨_, rfl⟩

end Backend

/-- A reply that tells a client what it has joined or left. -/
inductive Notice where
  | subscribed (channel : Bytes)
  | unsubscribed (channel : Bytes)
  deriving DecidableEq

/-- Read a reply of SUBSCRIBE or UNSUBSCRIBE. -/
def RespValue.notice? : RespValue → Option Notice
  | .array [.bulkString kind, .bulkString channel, .integer _] =>
      if kind = ascii "subscribe" then
        some (.subscribed channel)
      else if kind = ascii "unsubscribe" then
        some (.unsubscribed channel)
      else
        none
  | _ => none

/-- An error reply. -/
def RespValue.isError : RespValue → Bool
  | .error _ => true
  | _ => false

/-- The notices in what is handed to `do_write`. -/
def Output.notices : Output → List Notice
  | .pubSub values => values.filterMap RespValue.notice?
  | .replies _ | .message _ _ => []

/--
What a command that was answered without an error does to the groups that the
channels are.
-/
def operationsOf
    (id : Nat)
    (answer : Command × List RespValue) :
    List (Operation Bytes Nat Bytes) :=
  if answer.2.any RespValue.isError then
    []
  else if answer.1.name = ascii "SUBSCRIBE" then
    answer.1.args.map fun channel => .join channel id
  else if answer.1.name = ascii "UNSUBSCRIBE" then
    if answer.1.args.isEmpty then
      [.leaveAll id]
    else
      answer.1.args.map fun channel => .leave channel id
  else if answer.1.name = ascii "PUBLISH" then
    match answer.1.args with
    | [channel, message] => [.send channel message]
    | _ => []
  else
    []

section Replies

@[simp] theorem notice?_subscribe
    (channel : Bytes)
    (count : Int64) :
    (makeSubscribeReply (ascii "subscribe") channel count).notice? =
      some (.subscribed channel) :=
  rfl

@[simp] theorem notice?_unsubscribe
    (channel : Bytes)
    (count : Int64) :
    (makeSubscribeReply (ascii "unsubscribe") channel count).notice? =
      some (.unsubscribed channel) :=
  rfl

@[simp] theorem isError_makeSubscribeReply
    (kind channel : Bytes)
    (count : Int64) :
    (makeSubscribeReply kind channel count).isError = false :=
  rfl

/-- Only three commands do anything to the groups. -/
theorem operationsOf_other
    {cmd : Command}
    (joins : cmd.name ≠ ascii "SUBSCRIBE")
    (leaves : cmd.name ≠ ascii "UNSUBSCRIBE")
    (publishes : cmd.name ≠ ascii "PUBLISH")
    (id : Nat)
    (replies : List RespValue) :
    operationsOf id (cmd, replies) = [] := by
  simp [operationsOf, joins, leaves, publishes]

end Replies

/-- The broker represents the relation with callbacks of the right clients. -/
structure PubSubBroker.Wired
    (broker : PubSubBroker)
    (relation : Finset (Bytes × Nat)) :
    Prop extends broker.Represents relation where
  callbacks :
    ∀ channel,
      ∀ subscriber ∈ broker.row channel,
        subscriber.write = ⟨subscriber.id, channel⟩

/-- Publishing on a channel calls each of its members back. -/
theorem PubSubBroker.Wired.publish
    {broker : PubSubBroker}
    {relation : Finset (Bytes × Nat)}
    (wired : broker.Wired relation)
    (channel message : Bytes) :
    broker.publish channel message =
      (toInt64 (audience relation channel).card,
        (broker.members channel).map fun id => ⟨⟨id, channel⟩, message⟩) := by
  rw [publish_eq, wired.toRepresents.length_row, members, List.map_map]
  congr 1
  refine List.map_congr_left fun subscriber member => ?_
  rw [wired.callbacks channel subscriber member]
  rfl

/-- A connection and the broker agree on the relation. -/
structure Agree
    (id : Nat)
    (joined : ByteSet)
    (broker : PubSubBroker)
    (relation : Finset (Bytes × Nat)) :
    Prop where
  wired : broker.Wired relation
  joined :
    ∀ channel, channel ∈ joined.members ↔ (channel, id) ∈ relation

section Loops

variable {id : Nat} {joined : ByteSet} {broker : PubSubBroker}
variable {relation : Finset (Bytes × Nat)}

theorem Agree.subscribe
    (agree : Agree id joined broker relation)
    (channel : Bytes) :
    Agree id (joined.insert channel)
      (broker.subscribe channel id ⟨id, channel⟩).2
      (insert (channel, id) relation) := by
  refine ⟨⟨agree.wired.toRepresents.subscribe channel id _, ?_⟩, ?_⟩
  · intro other subscriber member
    rw [PubSubBroker.row_subscribe] at member
    split at member
    · rename_i same
      subst same
      rcases PubSubBroker.mem_enroll member with rfl | earlier
      · rfl
      · exact agree.wired.callbacks other subscriber earlier
    · exact agree.wired.callbacks other subscriber member
  · intro other
    rw [ByteSet.mem_insert, agree.joined, Finset.mem_insert,
      Prod.mk.injEq, and_iff_left rfl]

theorem Agree.unsubscribe
    (agree : Agree id joined broker relation)
    (channel : Bytes) :
    Agree id (joined.erase channel) (broker.unsubscribe channel id).2
      (relation.erase (channel, id)) := by
  refine ⟨⟨agree.wired.toRepresents.unsubscribe channel id, ?_⟩, ?_⟩
  · intro other subscriber member
    rw [PubSubBroker.row_unsubscribe] at member
    split at member
    · rename_i same
      subst same
      exact agree.wired.callbacks other subscriber
        (List.mem_of_mem_filter member)
    · exact agree.wired.callbacks other subscriber member
  · intro other
    rw [ByteSet.mem_erase, agree.joined, Finset.mem_erase, Ne, Ne,
      Prod.mk.injEq, and_iff_left rfl]

/-- The loop of SUBSCRIBE. -/
theorem Agree.subscribeAll
    (agree : Agree id joined broker relation)
    (channels : List Bytes) :
    let outcome := Connection.subscribeAll id channels joined broker
    Agree id outcome.2.1 outcome.2.2
        (relationFrom relation
          (channels.map fun channel =>
            (.join channel id : Operation Bytes Nat Bytes))) ∧
      outcome.1.filterMap RespValue.notice? =
        channels.map Notice.subscribed ∧
      outcome.1.any RespValue.isError = false := by
  induction channels generalizing joined broker relation with
  | nil =>
      exact ⟨agree, rfl, rfl⟩
  | cons channel later inductionHypothesis =>
      obtain ⟨rest, told, fine⟩ :=
        inductionHypothesis (agree.subscribe channel)
      refine ⟨rest, ?_, fine⟩
      simp only [Connection.subscribeAll, List.filterMap_cons,
        notice?_subscribe, told, List.map_cons]

/-- The loop of UNSUBSCRIBE over the channels of the command. -/
theorem Agree.unsubscribeEach
    (agree : Agree id joined broker relation)
    (channels : List Bytes) :
    let outcome := Connection.unsubscribeEach id channels joined broker
    Agree id outcome.2.1 outcome.2.2
        (relationFrom relation
          (channels.map fun channel =>
            (.leave channel id : Operation Bytes Nat Bytes))) ∧
      outcome.1.filterMap RespValue.notice? =
        channels.map Notice.unsubscribed ∧
      outcome.1.any RespValue.isError = false := by
  induction channels generalizing joined broker relation with
  | nil =>
      exact ⟨agree, rfl, rfl⟩
  | cons channel later inductionHypothesis =>
      obtain ⟨rest, told, fine⟩ :=
        inductionHypothesis (agree.unsubscribe channel)
      refine ⟨rest, ?_, fine⟩
      simp only [Connection.unsubscribeEach, List.filterMap_cons,
        notice?_unsubscribe, told, List.map_cons]

theorem mem_foldl_erase
    {names : List Bytes}
    {channel : Bytes} :
    channel ∈ (names.foldl ByteSet.erase joined).members ↔
      channel ∉ names ∧ channel ∈ joined.members := by
  induction names generalizing joined with
  | nil =>
      simp
  | cons name later inductionHypothesis =>
      rw [List.foldl_cons, inductionHypothesis, ByteSet.mem_erase,
        List.mem_cons]
      tauto

/-- UNSUBSCRIBE without channels. -/
theorem Agree.unsubscribeFromAll
    (agree : Agree id joined broker relation) :
    let outcome := Connection.unsubscribeFromAll id joined broker
    Agree id outcome.2.1 outcome.2.2
        (relation.filter fun pair => pair.2 ≠ id) ∧
      (∃ channels : List Bytes,
        outcome.1.filterMap RespValue.notice? =
            channels.map Notice.unsubscribed ∧
          ∀ channel, (channel, id) ∈ relation → channel ∈ channels) ∧
      outcome.1.any RespValue.isError = false := by
  obtain ⟨-, names⟩ := agree.wired.toRepresents.unsubscribeAll_fst id
  refine ⟨⟨⟨agree.wired.toRepresents.unsubscribeAll id, ?_⟩, ?_⟩, ?_, ?_⟩
  · intro channel subscriber member
    rw [Connection.unsubscribeFromAll,
      PubSubBroker.row_unsubscribeAll] at member
    exact agree.wired.callbacks channel subscriber
      (List.mem_of_mem_filter member)
  · intro channel
    rw [Connection.unsubscribeFromAll, mem_foldl_erase, agree.joined,
      names, Finset.mem_filter]
    simp
  · simp only [Connection.unsubscribeFromAll]
    split
    · rename_i nothing
      refine ⟨[[]], rfl, fun channel listed => ?_⟩
      rw [← names, List.isEmpty_iff.mp nothing] at listed
      exact absurd listed List.not_mem_nil
    · refine ⟨(broker.unsubscribeAll id).1, ?_, fun channel =>
        (names channel).mpr⟩
      rw [List.filterMap_map, ← List.filterMap_eq_map]
      rfl
  · simp only [Connection.unsubscribeFromAll]
    split
    · rfl
    · simp

end Loops

/-- What a client is told about the change of its own subscriptions. -/
inductive Told
    (id : Nat)
    (before after : Finset (Bytes × Nat))
    (notices : List Notice) :
    Prop where
  | joined
      (channels : List Bytes)
      (names : notices = channels.map Notice.subscribed)
      (members :
        ∀ channel,
          (channel, id) ∈ after ↔
            channel ∈ channels ∨ (channel, id) ∈ before)
  | left
      (channels : List Bytes)
      (names : notices = channels.map Notice.unsubscribed)
      (members :
        ∀ channel,
          (channel, id) ∈ after ↔
            channel ∉ channels ∧ (channel, id) ∈ before)

/-- A connection changes its own subscriptions and tells the client. -/
structure Resubscribes
    (id : Nat)
    (relation : Finset (Bytes × Nat))
    (operations : List (Operation Bytes Nat Bytes))
    (notices : List Notice)
    (joined : ByteSet)
    (broker : PubSubBroker) :
    Prop where
  agree : Agree id joined broker (relationFrom relation operations)
  told : Told id relation (relationFrom relation operations) notices
  others :
    ∀ channel other,
      other ≠ id →
      ((channel, other) ∈ relationFrom relation operations ↔
        (channel, other) ∈ relation)
  quiet : ∀ operation ∈ operations, operation.Quiet

section Handlers

variable {id : Nat} {joined : ByteSet} {broker : PubSubBroker}
variable {relation : Finset (Bytes × Nat)}

theorem Agree.resubscribes
    (agree : Agree id joined broker relation) :
    Resubscribes id relation [] [] joined broker where
  agree := agree
  told := .joined [] rfl fun _ => by simp [relationFrom]
  others _ _ _ := Iff.rfl
  quiet _ member := absurd member List.not_mem_nil

theorem Agree.resubscribes_join
    (agree : Agree id joined broker relation)
    (channels : List Bytes) :
    let outcome := Connection.subscribeAll id channels joined broker
    Resubscribes id relation
      (channels.map fun channel => .join channel id)
      (outcome.1.filterMap RespValue.notice?) outcome.2.1 outcome.2.2 := by
  obtain ⟨after, told, -⟩ := agree.subscribeAll channels
  refine ⟨after, .joined channels told ?_, ?_, ?_⟩
  · intro channel
    rw [mem_relationFrom_join, and_iff_left rfl]
  · intro channel other differs
    rw [mem_relationFrom_join]
    exact or_iff_right fun same => differs same.2
  · simp [Operation.Quiet]

theorem Agree.resubscribes_leave
    (agree : Agree id joined broker relation)
    (channels : List Bytes) :
    let outcome := Connection.unsubscribeEach id channels joined broker
    Resubscribes id relation
      (channels.map fun channel => .leave channel id)
      (outcome.1.filterMap RespValue.notice?) outcome.2.1 outcome.2.2 := by
  obtain ⟨after, told, -⟩ := agree.unsubscribeEach channels
  refine ⟨after, .left channels told ?_, ?_, ?_⟩
  · intro channel
    rw [mem_relationFrom_leave, and_iff_left rfl]
  · intro channel other differs
    rw [mem_relationFrom_leave]
    exact and_iff_right fun same => differs same.2
  · simp [Operation.Quiet]

theorem Agree.resubscribes_leaveAll
    (agree : Agree id joined broker relation) :
    let outcome := Connection.unsubscribeFromAll id joined broker
    Resubscribes id relation [.leaveAll id]
      (outcome.1.filterMap RespValue.notice?) outcome.2.1 outcome.2.2 := by
  obtain ⟨after, ⟨channels, told, all⟩, -⟩ := agree.unsubscribeFromAll
  have gone (channel : Bytes) (other : Nat) :
      (channel, other) ∈
          relationFrom relation
            [(.leaveAll id : Operation Bytes Nat Bytes)] ↔
        (channel, other) ∈ relation ∧ other ≠ id := by
    simp [relationFrom, Operation.apply]
  refine ⟨after, .left channels told ?_, ?_, ?_⟩
  · intro channel
    rw [gone]
    refine iff_of_false (fun same => same.2 rfl) fun stays => ?_
    exact stays.1 (all channel stays.2)
  · intro channel other differs
    rw [gone]
    exact and_iff_left differs
  · simp [Operation.Quiet]

/-- SUBSCRIBE with a broker. -/
theorem Agree.handleSubscribe
    {connection : Connection}
    {cmd : Command}
    (agree :
      Agree connection.id connection.subscribedChannels broker relation)
    (joins : cmd.name = ascii "SUBSCRIBE") :
    let outcome := connection.handleSubscribe (some broker) cmd
    ∃ after,
      outcome.2.2 = some after ∧
        Resubscribes connection.id relation
          (operationsOf connection.id (cmd, outcome.1))
          (outcome.1.filterMap RespValue.notice?) outcome.2.1 after := by
  simp only [Connection.handleSubscribe]
  cases nothing : cmd.args.isEmpty with
  | true =>
      exact ⟨broker, rfl, agree.resubscribes⟩
  | false =>
      obtain ⟨-, -, fine⟩ := agree.subscribeAll cmd.args
      refine ⟨_, rfl, ?_⟩
      simp only [operationsOf, Bool.false_eq_true, if_false, fine, joins,
        if_true]
      exact agree.resubscribes_join cmd.args

/-- UNSUBSCRIBE with a broker. -/
theorem Agree.handleUnsubscribe
    {connection : Connection}
    {cmd : Command}
    (agree :
      Agree connection.id connection.subscribedChannels broker relation)
    (leaves : cmd.name = ascii "UNSUBSCRIBE") :
    let outcome := connection.handleUnsubscribe broker cmd
    Resubscribes connection.id relation
      (operationsOf connection.id (cmd, outcome.1))
      (outcome.1.filterMap RespValue.notice?) outcome.2.1 outcome.2.2 := by
  have other : ascii "UNSUBSCRIBE" ≠ ascii "SUBSCRIBE" := by
    decide
  simp only [Connection.handleUnsubscribe]
  cases nothing : cmd.args.isEmpty with
  | true =>
      obtain ⟨-, -, fine⟩ := agree.unsubscribeFromAll
      simp only [operationsOf, if_true, fine, Bool.false_eq_true, if_false,
        leaves, other, nothing]
      exact agree.resubscribes_leaveAll
  | false =>
      obtain ⟨-, -, fine⟩ := agree.unsubscribeEach cmd.args
      simp only [operationsOf, Bool.false_eq_true, if_false, fine, leaves,
        if_true, other, nothing]
      exact agree.resubscribes_leave cmd.args

end Handlers

namespace Turn

/-- The connection of a turn and its server agree on the relation. -/
def Agrees (turn : Turn) (relation : Finset (Bytes × Nat)) : Prop :=
  ∃ broker,
    turn.server.backend.broker = some broker ∧
      Agree turn.connection.id turn.connection.subscribedChannels broker
        relation

/-- What one value does to the subscriptions and to what is posted. -/
inductive PubSubStep
    (relation : Finset (Bytes × Nat))
    (turn : Turn)
    (value : RespValue)
    (next : Turn) :
    Prop where
  | resubscribed
      (more : List (Command × List RespValue))
      (notices : List Notice)
      (broker : PubSubBroker)
      (answered : next.answered = turn.answered ++ more)
      (serves : next.server.backend.broker = some broker)
      (changes :
        Resubscribes turn.connection.id relation
          (more.flatMap (operationsOf turn.connection.id)) notices
          next.connection.subscribedChannels broker)
      (posted : next.server.backend.posted = turn.server.backend.posted)
      (calls :
        turn.serveCalls value = [] ∧ notices = [] ∨
          ∃ output,
            turn.serveCalls value = [.doWrite output] ∧
              output.notices = notices)
  | published
      (channel message : Bytes)
      (members : List Nat)
      (answered :
        next.answered =
          turn.answered ++
            [(⟨ascii "PUBLISH", [channel, message]⟩,
              [.integer (toInt64 (audience relation channel).card)])])
      (serves :
        next.server.backend.broker = turn.server.backend.broker)
      (joined :
        next.connection.subscribedChannels =
          turn.connection.subscribedChannels)
      (distinct : members.Nodup)
      (listed : ∀ id, id ∈ members ↔ (channel, id) ∈ relation)
      (posted :
        next.server.backend.posted =
          turn.server.backend.posted ++
            members.map fun id => ⟨⟨id, channel⟩, message⟩)
      (calls : turn.serveCalls value = [])

section Serving

variable {reserve : Reserve} {relation : Finset (Bytes × Nat)}
variable {turn next : Turn} {value : RespValue}

/-- A command that leaves the subscriptions alone. -/
theorem pubSubStep_of_quiet
    (agrees : turn.Agrees relation)
    (more : List (Command × List RespValue))
    (answered : next.answered = turn.answered ++ more)
    (nothing : more.flatMap (operationsOf turn.connection.id) = [])
    (serves : next.server.backend.broker = turn.server.backend.broker)
    (joined :
      next.connection.subscribedChannels =
        turn.connection.subscribedChannels)
    (posted : next.server.backend.posted = turn.server.backend.posted)
    (calls : turn.serveCalls value = []) :
    turn.PubSubStep relation value next := by
  obtain ⟨broker, served, agree⟩ := agrees
  refine .resubscribed more [] broker answered (serves.trans served) ?_
    posted (Or.inl ⟨calls, rfl⟩)
  rw [nothing, joined]
  exact agree.resubscribes

theorem execute_pubSubStep
    (agrees : turn.Agrees relation)
    {cmd : Command}
    (joins : cmd.name ≠ ascii "SUBSCRIBE")
    (leaves : cmd.name ≠ ascii "UNSUBSCRIBE")
    (calls : turn.serveCalls value = [])
    (now : TimePoint) :
    turn.PubSubStep relation value (turn.execute reserve now cmd).state := by
  unfold execute
  cases logs : turn.server.logWrite reserve cmd with
  | error exception =>
      exact pubSubStep_of_quiet agrees [(cmd, [exceptionReply exception])]
        rfl rfl rfl rfl rfl calls
  | ok logged =>
      have same := Server.backend_of_logWrite logs
      obtain ⟨broker, posted, -⟩ := logged.backend.answer_frame now cmd
      have answer := logged.backend.answer_fst now cmd
      rw [same] at broker posted answer
      simp only [Server.dispatch, same]
      by_cases publishes : cmd.name = ascii "PUBLISH"
      · have ⟨hub, served, agree⟩ := agrees
        obtain ⟨name, args⟩ := cmd
        rcases Backend.dispatch_publish served publishes now with
          ⟨channel, message, shape, result⟩ | ⟨text, result⟩
        · simp only at publishes shape
          subst publishes shape
          rw [result] at posted answer
          rw [agree.wired.publish] at posted answer
          rw [answer]
          exact .published channel message (hub.members channel) rfl broker
            rfl (agree.wired.distinct channel) (agree.wired.listed channel)
            posted calls
        · rw [result] at posted answer
          rw [answer]
          exact pubSubStep_of_quiet agrees _ rfl rfl broker rfl posted calls
      · rw [Backend.dispatch_posted publishes] at posted
        have nothing (replies : List RespValue) :
            [(cmd, replies)].flatMap (operationsOf turn.connection.id) =
              [] := by
          simp [operationsOf_other joins leaves publishes]
        cases (turn.server.backend.answer now cmd).1 with
        | error exception =>
            exact pubSubStep_of_quiet agrees _ rfl (nothing _) broker rfl
              posted calls
        | ok reply =>
            exact pubSubStep_of_quiet agrees _ rfl (nothing _) broker rfl
              posted calls

/-- Serving a value is a step of the relation. -/
theorem serve_pubSubStep
    (agrees : turn.Agrees relation)
    (reserve : Reserve)
    (clock : Nat → TimePoint)
    (value : RespValue) :
    turn.PubSubStep relation value
      (turn.serve reserve clock value).state := by
  unfold serve
  cases parsed : parseCommand value with
  | none =>
      have calls : turn.serveCalls value = [] := by
        simp only [serveCalls, parsed]
      exact pubSubStep_of_quiet agrees [] (List.append_nil _).symm rfl rfl
        rfl rfl calls
  | some cmd =>
      dsimp only
      by_cases auth : cmd.name = ascii "AUTH"
      · have calls : turn.serveCalls value = [] := by
          simp only [serveCalls, parsed, if_pos auth]
        obtain ⟨authenticated, outcome⟩ :=
          turn.connection.handleAuth_snd cmd
        simp only [if_pos auth, Control.state_proceed, outcome]
        refine pubSubStep_of_quiet agrees _ rfl ?_ rfl rfl rfl calls
        simp only [List.flatMap_singleton]
        exact operationsOf_other (by rw [auth]; decide)
          (by rw [auth]; decide) (by rw [auth]; decide) _ _
      simp only [if_neg auth]
      by_cases refused : turn.connection.authenticated = false
      · have calls : turn.serveCalls value = [] := by
          simp only [serveCalls, parsed, if_neg auth, if_pos refused]
        simp only [if_pos refused]
        exact pubSubStep_of_quiet agrees _ rfl rfl rfl rfl rfl calls
      simp only [if_neg refused]
      have ⟨broker, served, agree⟩ := agrees
      by_cases joins : cmd.name = ascii "SUBSCRIBE"
      · obtain ⟨after, serves, changes⟩ := agree.handleSubscribe joins
        have calls :
            turn.serveCalls value =
              [.doWrite (.pubSub
                (turn.connection.handleSubscribe (some broker) cmd).1)] := by
          simp only [serveCalls, parsed, if_neg auth, if_neg refused,
            if_pos joins, served]
        simp only [if_pos joins, Control.state_proceed, subscribe, served]
        refine .resubscribed _ _ after rfl serves ?_ rfl
          (Or.inr ⟨_, calls, rfl⟩)
        rw [List.flatMap_singleton]
        exact changes
      simp only [if_neg joins]
      by_cases leaves : cmd.name = ascii "UNSUBSCRIBE"
      · have changes := agree.handleUnsubscribe leaves
        have calls :
            turn.serveCalls value =
              [.doWrite (.pubSub
                (turn.connection.handleUnsubscribe broker cmd).1)] := by
          simp only [serveCalls, parsed, if_neg auth, if_neg refused,
            if_neg joins, if_pos leaves, served]
        simp only [if_pos leaves, Control.state_proceed, unsubscribe,
          served]
        refine .resubscribed _ _ _ rfl rfl ?_ rfl
          (Or.inr ⟨_, calls, rfl⟩)
        rw [List.flatMap_singleton]
        exact changes
      · have calls : turn.serveCalls value = [] := by
          simp only [serveCalls, parsed, if_neg auth, if_neg refused,
            if_neg joins, if_neg leaves]
        simp only [if_neg leaves]
        exact execute_pubSubStep agrees joins leaves calls _

end Serving

end Turn

end Vortek
