import Vortek.AofPersistence

namespace Vortek

open IncrementalDecoder

/-!
# Connections

One completed read of a connection: `handleData` is `handle_data` of
`connection.cpp` with everything it calls.  Commands go through authentication,
the two pub/sub commands, the append-only file and the dispatcher; replies are
collected and handed to `do_write` at the end of the read, except for those of
SUBSCRIBE and UNSUBSCRIBE, which are handed over at once.

A `Turn` records, beside the new state, the strings handed to `do_write`, the
commands answered with their replies, and the commands dispatched with the
state they found.  The program does not read these records.
-/

/-- The socket with its outstanding operations and the output queue. -/
structure Transport where
  socketOpen : Bool
  readInProgress : Bool
  writeInProgress : Bool
  pendingWriteBytes : Nat
  writeBuf : Bytes
  writeQueue : List Bytes

namespace Transport

/-- `socket_.close(ignored)`. -/
def closeSocket (transport : Transport) : Transport :=
  { transport with socketOpen := false }

/-- Start an asynchronous write of the front of the queue. -/
def flushWriteQueue (transport : Transport) : Transport :=
  match transport.writeQueue with
  | [] => { transport with writeInProgress := false }
  | front :: later =>
      if transport.socketOpen then
        { transport with
          writeInProgress := true
          writeBuf := front
          writeQueue := later }
      else
        { transport with writeInProgress := false }

/-- Queue a string, or close the socket of a slow client. -/
def doWrite
    (maxPendingWriteBytes : Nat)
    (transport : Transport)
    (data : Bytes) :
    Transport :=
  if transport.socketOpen then
    if maxPendingWriteBytes <
        transport.pendingWriteBytes + data.length then
      transport.closeSocket
    else
      let queued :=
        { transport with
          pendingWriteBytes := transport.pendingWriteBytes + data.length
          writeQueue := transport.writeQueue ++ [data] }
      if queued.writeInProgress then queued else queued.flushWriteQueue
  else
    transport

/-- Start an asynchronous read unless one is outstanding. -/
def doRead (transport : Transport) : Transport :=
  if transport.readInProgress || !transport.socketOpen then
    transport
  else
    { transport with readInProgress := true }

end Transport

/-- The state of one client connection. -/
structure Connection where
  id : Nat
  requirepass : Bytes
  maxRequestBytes : Nat
  maxPendingWriteBytes : Nat
  parser : RespParser
  authenticated : Bool
  closeAfterWrite : Bool
  subscribedChannels : ByteSet
  transport : Transport

/-- A connection whose socket has just been accepted. -/
def Connection.create
    (id : Nat)
    (requirepass : Bytes)
    (maxRequestBytes maxPendingWriteBytes : Nat) :
    Connection where
  id := id
  requirepass := requirepass
  maxRequestBytes := maxRequestBytes
  maxPendingWriteBytes := maxPendingWriteBytes
  parser := RespParser.empty
  authenticated := requirepass.isEmpty
  closeAfterWrite := false
  subscribedChannels := ByteSet.empty
  transport := ⟨true, false, false, 0, [], []⟩

/-- What all connections share. -/
structure Server where
  backend : Backend
  aof : Option AofPersistence

/-- Dispatch a command, and count it unless its handler throws. -/
def Backend.answer
    (now : TimePoint)
    (backend : Backend)
    (cmd : Command) :
    Except CppException RespValue × Backend :=
  match backend.dispatch now cmd with
  | (.error exception, after) => (.error exception, after)
  | (.ok reply, after) =>
      (.ok reply,
        { after with
          stats :=
            { after.stats with
              totalCommands := after.stats.totalCommands + 1 } })

namespace Server

/-- Log a command if there is a file and the command is a write. -/
def logWrite
    (reserve : Reserve)
    (server : Server)
    (cmd : Command) :
    Except CppException Server :=
  match server.aof with
  | none => .ok server
  | some aof =>
      if AofPersistence.isWriteCommand cmd.name then
        match aof.log reserve cmd with
        | .error exception => .error exception
        | .ok logged => .ok { server with aof := some logged }
      else
        .ok server

/-- Dispatch a command on the state that connections share. -/
def dispatch
    (now : TimePoint)
    (server : Server)
    (cmd : Command) :
    Except CppException RespValue × Server :=
  let outcome := server.backend.answer now cmd
  (outcome.1, { server with backend := outcome.2 })

end Server

/-- The error that answers an exception. -/
def exceptionReply (exception : CppException) : RespValue :=
  .error (ascii "ERR " ++ exception.what)

/-- `make_subscribe_reply`: the kind, the channel and the number of channels. -/
def makeSubscribeReply
    (kind channel : Bytes)
    (count : Int64) :
    RespValue :=
  .array [.bulkString kind, .bulkString channel, .integer count]

namespace Connection

/-- `do_write` on the transport of a connection. -/
def write (connection : Connection) (data : Bytes) : Connection :=
  { connection with
    transport :=
      connection.transport.doWrite connection.maxPendingWriteBytes data }

/-- `do_read` on the transport of a connection. -/
def read (connection : Connection) : Connection :=
  { connection with transport := connection.transport.doRead }

/-- AUTH password. -/
def handleAuth
    (connection : Connection)
    (cmd : Command) :
    RespValue × Connection :=
  match cmd.args with
  | [password] =>
      if connection.requirepass.isEmpty then
        (err "ERR AUTH called without any password configured",
          connection)
      else if password ≠ connection.requirepass then
        (err "ERR invalid password", connection)
      else
        (.simpleString (ascii "OK"),
          { connection with authenticated := true })
  | _ => (err "ERR wrong number of arguments for 'AUTH' command", connection)

/-- The loop of `handle_subscribe` over the channels. -/
def subscribeAll (id : Nat) :
    List Bytes → ByteSet → PubSubBroker →
      List RespValue × ByteSet × PubSubBroker
  | [], joined, broker => ([], joined, broker)
  | channel :: later, joined, broker =>
      let subscribed := broker.subscribe channel id ⟨id, channel⟩
      let rest := subscribeAll id later (joined.insert channel) subscribed.2
      (makeSubscribeReply (ascii "subscribe") channel subscribed.1 :: rest.1,
        rest.2)

/-- The loop of `handle_unsubscribe` over the channels of the command. -/
def unsubscribeEach (id : Nat) :
    List Bytes → ByteSet → PubSubBroker →
      List RespValue × ByteSet × PubSubBroker
  | [], joined, broker => ([], joined, broker)
  | channel :: later, joined, broker =>
      let left := broker.unsubscribe channel id
      let rest := unsubscribeEach id later (joined.erase channel) left.2
      (makeSubscribeReply (ascii "unsubscribe") channel left.1 :: rest.1,
        rest.2)

/-- UNSUBSCRIBE without channels: leave all of them. -/
def unsubscribeFromAll
    (id : Nat)
    (joined : ByteSet)
    (broker : PubSubBroker) :
    List RespValue × ByteSet × PubSubBroker :=
  let left := broker.unsubscribeAll id
  let replies :=
    left.1.map fun channel =>
      makeSubscribeReply (ascii "unsubscribe") channel 0
  let silent := makeSubscribeReply (ascii "unsubscribe") [] 0
  (if left.1.isEmpty then [silent] else replies,
    left.1.foldl ByteSet.erase joined, left.2)

/-- The replies of SUBSCRIBE, and both sides of the subscriptions after it. -/
def handleSubscribe
    (connection : Connection)
    (broker : Option PubSubBroker)
    (cmd : Command) :
    List RespValue × ByteSet × Option PubSubBroker :=
  match broker with
  | none =>
      ([err "ERR SUBSCRIBE requires at least one channel"],
        connection.subscribedChannels, none)
  | some broker =>
      if cmd.args.isEmpty then
        ([err "ERR SUBSCRIBE requires at least one channel"],
          connection.subscribedChannels, some broker)
      else
        let joined :=
          subscribeAll connection.id cmd.args
            connection.subscribedChannels broker
        (joined.1, joined.2.1, some joined.2.2)

/-- The replies of UNSUBSCRIBE with a broker, and both sides after it. -/
def handleUnsubscribe
    (connection : Connection)
    (broker : PubSubBroker)
    (cmd : Command) :
    List RespValue × ByteSet × PubSubBroker :=
  if cmd.args.isEmpty then
    unsubscribeFromAll connection.id connection.subscribedChannels broker
  else
    unsubscribeEach connection.id cmd.args
      connection.subscribedChannels broker

end Connection

/-- The state of `handle_data` and a record of what it did. -/
structure Turn where
  connection : Connection
  server : Server
  responses : Bytes
  handed : List Bytes
  answered : List (Command × List RespValue)
  dispatched : List Dispatch
  raised : Option CppException

namespace Turn

/-- Hand a string to `do_write`. -/
def write (turn : Turn) (data : Bytes) : Turn :=
  { turn with
    connection := turn.connection.write data
    handed := turn.handed ++ [data] }

/-- Collect the reply of a command. -/
def reply (turn : Turn) (cmd : Command) (value : RespValue) : Turn :=
  { turn with
    responses := turn.responses ++ value.serialize
    answered := turn.answered ++ [(cmd, [value])] }

/-- Hand the replies of a pub/sub command to `do_write` at once. -/
def replyNow
    (turn : Turn)
    (cmd : Command)
    (values : List RespValue) :
    Turn :=
  { turn with
    answered := turn.answered ++ [(cmd, values)] }.write
      (RespValue.serializeAll values)

/-- Replace the subscriptions of the connection and of the broker. -/
def setSubscriptions
    (turn : Turn)
    (joined : ByteSet)
    (broker : Option PubSubBroker) :
    Turn :=
  { turn with
    connection :=
      { turn.connection with subscribedChannels := joined }
    server :=
      { turn.server with
        backend := { turn.server.backend with broker := broker } } }

/-- SUBSCRIBE is answered at once. -/
def subscribe (turn : Turn) (cmd : Command) : Turn :=
  let outcome :=
    turn.connection.handleSubscribe turn.server.backend.broker cmd
  (turn.setSubscriptions outcome.2.1 outcome.2.2).replyNow cmd outcome.1

/-- UNSUBSCRIBE is answered at once, if there is a broker. -/
def unsubscribe (turn : Turn) (cmd : Command) : Turn :=
  match turn.server.backend.broker with
  | none =>
      -- Without a broker there is no reply; the next read is started.
      { turn with
        connection := turn.connection.read
        answered := turn.answered ++ [(cmd, [])] }
  | some broker =>
      let outcome := turn.connection.handleUnsubscribe broker cmd
      (turn.setSubscriptions outcome.2.1 (some outcome.2.2)).replyNow
        cmd outcome.1

/-- Answer a command that threw. -/
def fail
    (turn : Turn)
    (cmd : Command)
    (exception : CppException) :
    Turn :=
  { turn.reply cmd (exceptionReply exception) with
    raised := some exception }

/-- Log and dispatch an ordinary command; an exception leaves the loop. -/
def execute
    (reserve : Reserve)
    (now : TimePoint)
    (turn : Turn)
    (cmd : Command) :
    Control Turn :=
  match turn.server.logWrite reserve cmd with
  | .error exception => .leave (turn.fail cmd exception)
  | .ok logged =>
      let outcome := logged.dispatch now cmd
      let later :=
        { turn with
          server := outcome.2
          dispatched :=
            turn.dispatched ++ [Dispatch.mk now logged.backend cmd] }
      match outcome.1 with
      | .error exception => .leave (later.fail cmd exception)
      | .ok value => .proceed (later.reply cmd value)

/-- One value taken from the parser. -/
def serve
    (reserve : Reserve)
    (clock : Nat → TimePoint)
    (turn : Turn)
    (value : RespValue) :
    Control Turn :=
  match parseCommand value with
  | none =>
      .leave
        { turn with
          responses := turn.responses ++
            (err "ERR protocol error: expected command array").serialize }
  | some cmd =>
      if cmd.name = ascii "AUTH" then
        let outcome := turn.connection.handleAuth cmd
        .proceed
          ({ turn with connection := outcome.2 }.reply cmd outcome.1)
      else if turn.connection.authenticated = false then
        .proceed
          (turn.reply cmd (err "NOAUTH Authentication required."))
      else if cmd.name = ascii "SUBSCRIBE" then
        .proceed (turn.subscribe cmd)
      else if cmd.name = ascii "UNSUBSCRIBE" then
        .proceed (turn.unsubscribe cmd)
      else
        turn.execute reserve (clock turn.answered.length) cmd

/-- Store what is left in the parser. -/
def setParser (turn : Turn) (parser : RespParser) : Turn :=
  { turn with connection := { turn.connection with parser := parser } }

/-- Hand the collected replies to `do_write`, or start the next read. -/
def finish (turn : Turn) : Turn :=
  if turn.responses.isEmpty then
    { turn with connection := turn.connection.read }
  else
    turn.write turn.responses

end Turn

namespace Connection

/-- The start of a turn. -/
def begin (connection : Connection) (server : Server) : Turn :=
  ⟨connection, server, [], [], [], [], none⟩

/-- Answer a request that is too long, and close after the answer. -/
def refuseRequest (connection : Connection) (server : Server) : Turn :=
  let closing :=
    { connection with
      closeAfterWrite := true
      parser := connection.parser.reset }
  (closing.begin server).write
    (err "ERR max request size exceeded").serialize

/--
`handle_data` on a chunk that has been read.  The command answered as the `n`-th
of this read finds the clock at `clock n`.
-/
def handleData
    (reserve : Reserve)
    (clock : Nat → TimePoint)
    (connection : Connection)
    (server : Server)
    (chunk : Bytes) :
    Turn :=
  if connection.maxRequestBytes <
      connection.parser.bufferedSize + chunk.length then
    connection.refuseRequest server
  else
    let loop :=
      RespParser.feedEach reserve (Turn.serve reserve clock)
        (connection.begin server) connection.parser chunk
    match loop.ending with
    | .exhausted => (loop.state.setParser ⟨loop.rest⟩).finish
    | .left => (loop.state.setParser RespParser.empty).finish
    | .faulted exception =>
        ({ loop.state with
          responses := loop.state.responses ++
            (exceptionReply exception).serialize
          raised := some exception }.setParser RespParser.empty).finish

end Connection

/-- AUTH does not end an authentication. -/
theorem Connection.handleAuth_authenticated
    {connection : Connection}
    {cmd : Command}
    (authenticated : connection.authenticated = true) :
    (connection.handleAuth cmd).2.authenticated = true := by
  unfold handleAuth
  split
  · split
    · exact authenticated
    · split
      · exact authenticated
      · rfl
  · exact authenticated

section Finishing

@[simp] theorem Turn.finish_server
    (turn : Turn) :
    turn.finish.server = turn.server := by
  unfold finish
  split <;> rfl

@[simp] theorem Turn.finish_dispatched
    (turn : Turn) :
    turn.finish.dispatched = turn.dispatched := by
  unfold finish
  split <;> rfl

@[simp] theorem Turn.finish_answered
    (turn : Turn) :
    turn.finish.answered = turn.answered := by
  unfold finish
  split <;> rfl

@[simp] theorem Turn.finish_raised
    (turn : Turn) :
    turn.finish.raised = turn.raised := by
  unfold finish
  split <;> rfl

@[simp] theorem Turn.finish_connection
    (turn : Turn) :
    turn.finish.connection.parser = turn.connection.parser ∧
      turn.finish.connection.authenticated =
        turn.connection.authenticated := by
  unfold finish
  split <;> exact ⟨rfl, rfl⟩

/-- The end of a turn changes nothing of the connection but its transport. -/
theorem Turn.finish_connection_eq
    (turn : Turn) :
    ∃ transport,
      turn.finish.connection =
        { turn.connection with transport := transport } := by
  unfold finish
  split <;> exact ⟨_, rfl⟩

/-- In the end the collected replies follow what was handed over. -/
@[simp] theorem Turn.finish_handed
    (turn : Turn) :
    turn.finish.handed.flatten =
      turn.handed.flatten ++ turn.responses := by
  unfold finish
  split
  · rename_i nothing
    simp [List.isEmpty_iff.mp nothing]
  · simp [Turn.write]

end Finishing

section StoreAndFile

variable {reserve : Reserve} {clock : Nat → TimePoint}

/-- Logging a command that came from the parser does not throw. -/
theorem Server.logWrite_of_loggable
    {cmd : Command}
    (loggable : AofPersistence.Loggable reserve cmd)
    (server : Server) :
    server.logWrite reserve cmd =
      .ok { server with
        aof := server.aof.map fun aof =>
          if AofPersistence.isWriteCommand cmd.name then
            ⟨aof.file ++ cmd.toResp.serialize⟩
          else
            aof } := by
  obtain ⟨backend, aof⟩ := server
  cases aof with
  | none =>
      rfl
  | some aof =>
      unfold logWrite
      cases AofPersistence.isWriteCommand cmd.name with
      | false =>
          rfl
      | true =>
          simp only [if_true, loggable.log_eq_ok, Option.map_some]

/-- Logging touches the file only. -/
theorem Server.backend_of_logWrite
    {server logged : Server}
    {cmd : Command}
    (logs : server.logWrite reserve cmd = .ok logged) :
    logged.backend = server.backend := by
  unfold logWrite at logs
  split at logs
  · cases logs
    rfl
  · split at logs
    · split at logs
      · cases logs
      · cases logs
        rfl
    · cases logs
      rfl

/-- Counting touches neither the answer nor the store. -/
theorem Backend.answer_fst
    (now : TimePoint)
    (backend : Backend)
    (cmd : Command) :
    (backend.answer now cmd).1 = (backend.dispatch now cmd).1 := by
  unfold answer
  split <;> simp_all

/-- The counters aside, a command acts on the store as `dispatch` does. -/
theorem Backend.answer_store
    (now : TimePoint)
    (backend : Backend)
    (cmd : Command) :
    (backend.answer now cmd).2.store =
      (backend.dispatch now cmd).2.store := by
  unfold answer
  split <;> simp_all

/--
What one value does to the store and the file: nothing, or a command is logged
and dispatched.
-/
inductive Turn.DataStep
    (reserve : Reserve)
    (turn : Turn)
    (value : RespValue)
    (next : Turn) :
    Prop where
  | unchanged
      (dispatched : next.dispatched = turn.dispatched)
      (store : next.server.backend.store = turn.server.backend.store)
      (aof : next.server.aof = turn.server.aof)
  | executed
      (cmd : Command)
      (now : TimePoint)
      (logged : Server)
      (parsed : parseCommand value = some cmd)
      (logs : turn.server.logWrite reserve cmd = .ok logged)
      (dispatched :
        next.dispatched =
          turn.dispatched ++ [Dispatch.mk now logged.backend cmd])
      (store :
        next.server.backend.store =
          (logged.backend.dispatch now cmd).2.store)
      (aof : next.server.aof = logged.aof)

/-- A command that is executed is dispatched once, or throws before. -/
theorem Turn.execute_dataStep
    {turn : Turn}
    {value : RespValue}
    {cmd : Command}
    (parsed : parseCommand value = some cmd)
    (now : TimePoint) :
    DataStep reserve turn value
      (turn.execute reserve now cmd).state := by
  unfold execute
  cases logs : turn.server.logWrite reserve cmd with
  | error exception =>
      exact .unchanged rfl rfl rfl
  | ok logged =>
      simp only
      split
      · exact .executed cmd now logged parsed logs rfl
          (logged.backend.answer_store now cmd) rfl
      · exact .executed cmd now logged parsed logs rfl
          (logged.backend.answer_store now cmd) rfl

/-- What serving one value can do. -/
theorem Turn.serve_dataStep
    (turn : Turn)
    (value : RespValue) :
    DataStep reserve turn value
      (turn.serve reserve clock value).state := by
  unfold serve
  split
  · exact .unchanged rfl rfl rfl
  · rename_i cmd parsed
    split
    · exact .unchanged rfl rfl rfl
    · split
      · exact .unchanged rfl rfl rfl
      · split
        · exact .unchanged rfl rfl rfl
        · split
          · unfold unsubscribe
            split <;> exact .unchanged rfl rfl rfl
          · exact execute_dataStep parsed _

/--
A property of the server and of the commands dispatched in this read holds after
the read if every value keeps it.
-/
theorem Connection.handleData_invariant
    (holds : Server → List Dispatch → Prop)
    (keeps :
      ∀ turn value next,
        value.Storable reserve →
        Turn.DataStep reserve turn value next →
        holds turn.server turn.dispatched →
        holds next.server next.dispatched)
    {server : Server}
    (initially : holds server [])
    (connection : Connection)
    (chunk : Bytes) :
    let turn := connection.handleData reserve clock server chunk
    holds turn.server turn.dispatched := by
  have looped :
      let loop :=
        RespParser.feedEach reserve (Turn.serve reserve clock)
          (connection.begin server) connection.parser chunk
      holds loop.state.server loop.state.dispatched :=
    RespParser.feedEach_invariant
      (fun turn : Turn => holds turn.server turn.dispatched)
      (fun turn value storable =>
        keeps turn value _ storable (turn.serve_dataStep value))
      initially connection.parser chunk
  simp only [handleData]
  split
  · exact initially
  · split <;> rw [Turn.finish_server, Turn.finish_dispatched] <;>
      exact looped

end StoreAndFile

end Vortek
