import Vortek.Connection

namespace Vortek

open IncrementalDecoder

/-!
# Sessions

The asynchronous side of `connection.cpp`.  A session is a connection together
with the operations that have been started on its socket and have not called
back yet.  The handlers of `do_read`, `flush_write_queue`, `reset_idle_timer`
and `push_message` are the inputs of a session; the event loop runs one of them
at a time, and never inside another.

`handleData` describes what a read does to the connection.  Which of the calls
it makes reach the socket, and in which order, is read off the values that the
loop goes through (`handleCalls`), and agrees with `handleData`
(`handleData_transport`).
-/

/-- The frame of a published message. -/
def makeMessageFrame (channel message : Bytes) : RespValue :=
  .array [.bulkString (ascii "message"), .bulkString channel,
    .bulkString message]

/-- A string handed to `do_write`, by where it comes from. -/
inductive Output where
  | replies (data : Bytes)
  | pubSub (values : List RespValue)
  | message (channel text : Bytes)

/-- What is written for an output. -/
def Output.bytes : Output → Bytes
  | .replies data => data
  | .pubSub values => RespValue.serializeAll values
  | .message channel text => (makeMessageFrame channel text).serialize

/-- A call that reaches the socket. -/
inductive SocketCall where
  | doRead
  | doWrite (output : Output)

/--
The socket of a connection, with the operations started on it: the reads and
timer waits that are outstanding, and the buffers being written.  The strings
accepted by `do_write` and the ones written completely are recorded.
-/
structure Socket where
  transport : Transport
  reads : Nat
  writes : List Bytes
  waits : Nat
  accepted : List Output
  sent : List Bytes

namespace Socket

/-- Close the socket; what is outstanding will still call back. -/
def closeSocket (socket : Socket) : Socket :=
  { socket with transport := socket.transport.closeSocket }

/-- `do_read`: at most one read is in progress. -/
def doRead (socket : Socket) : Socket :=
  if socket.transport.readInProgress || !socket.transport.socketOpen then
    socket
  else
    { socket with
      transport := { socket.transport with readInProgress := true }
      reads := socket.reads + 1 }

/-- `flush_write_queue`: the front of the queue is written. -/
def flushWriteQueue (socket : Socket) : Socket :=
  match socket.transport.writeQueue with
  | [] =>
      { socket with
        transport := { socket.transport with writeInProgress := false } }
  | front :: later =>
      if socket.transport.socketOpen then
        { socket with
          transport :=
            { socket.transport with
              writeInProgress := true
              writeBuf := front
              writeQueue := later }
          writes := socket.writes ++ [front] }
      else
        { socket with
          transport := { socket.transport with writeInProgress := false } }

/-- `do_write`: too much output closes the socket. -/
def doWrite
    (maxPendingWriteBytes : Nat)
    (socket : Socket)
    (output : Output) :
    Socket :=
  if socket.transport.socketOpen then
    if maxPendingWriteBytes <
        socket.transport.pendingWriteBytes + output.bytes.length then
      socket.closeSocket
    else
      let queued :=
        { socket with
          transport :=
            { socket.transport with
              pendingWriteBytes :=
                socket.transport.pendingWriteBytes + output.bytes.length
              writeQueue := socket.transport.writeQueue ++ [output.bytes] }
          accepted := socket.accepted ++ [output] }
      if queued.transport.writeInProgress then
        queued
      else
        queued.flushWriteQueue
  else
    socket

/-- Start a new wait; the one before it will call back as aborted. -/
def resetIdleTimer (idleTimeout : Nat) (socket : Socket) : Socket :=
  if idleTimeout = 0 || !socket.transport.socketOpen then
    socket
  else
    { socket with waits := socket.waits + 1 }

/-- A call on the socket. -/
def perform (maxPendingWriteBytes : Nat) (socket : Socket) :
    SocketCall → Socket
  | .doRead => socket.doRead
  | .doWrite output => socket.doWrite maxPendingWriteBytes output

/-- The handler of a write, called with the size of the whole buffer. -/
def finishWrite (socket : Socket) (bytes : Nat) : Socket :=
  { socket with
    transport :=
      { socket.transport with
        pendingWriteBytes :=
          if bytes ≤ socket.transport.pendingWriteBytes then
            socket.transport.pendingWriteBytes - bytes
          else
            0 } }

section Transports

@[simp] theorem transport_doRead
    (socket : Socket) :
    socket.doRead.transport = socket.transport.doRead := by
  unfold doRead Transport.doRead
  split <;> rfl

/-- The socket with its records flushes as the transport does. -/
@[simp] theorem transport_flushWriteQueue
    (socket : Socket) :
    socket.flushWriteQueue.transport =
      socket.transport.flushWriteQueue := by
  unfold flushWriteQueue Transport.flushWriteQueue
  rcases socket with ⟨⟨isOpen, _, _, _, _, queue⟩, _, _, _, _, _⟩
  cases queue with
  | nil =>
      rfl
  | cons front later =>
      cases isOpen <;> rfl

/-- The socket with its records writes as the transport does. -/
@[simp] theorem transport_doWrite
    (limit : Nat)
    (socket : Socket)
    (output : Output) :
    (socket.doWrite limit output).transport =
      socket.transport.doWrite limit output.bytes := by
  unfold doWrite Transport.doWrite
  split
  · split
    · rfl
    · dsimp only
      split
      · rfl
      · rw [transport_flushWriteQueue]
  · rfl

@[simp] theorem transport_resetIdleTimer
    (idleTimeout : Nat)
    (socket : Socket) :
    (socket.resetIdleTimer idleTimeout).transport = socket.transport := by
  unfold resetIdleTimer
  split <;> rfl

@[simp] theorem reads_resetIdleTimer
    (idleTimeout : Nat)
    (socket : Socket) :
    (socket.resetIdleTimer idleTimeout).reads = socket.reads := by
  unfold resetIdleTimer
  split <;> rfl

/-- Flushing starts no read. -/
theorem flushWriteQueue_read
    (socket : Socket) :
    socket.flushWriteQueue.reads = socket.reads ∧
      socket.flushWriteQueue.transport.readInProgress =
        socket.transport.readInProgress := by
  unfold flushWriteQueue
  split
  · exact ⟨rfl, rfl⟩
  · split <;> exact ⟨rfl, rfl⟩

/-- Writing starts no read. -/
theorem doWrite_read
    (limit : Nat)
    (socket : Socket)
    (output : Output) :
    (socket.doWrite limit output).reads = socket.reads ∧
      (socket.doWrite limit output).transport.readInProgress =
        socket.transport.readInProgress := by
  unfold doWrite
  split
  · split
    · exact ⟨rfl, rfl⟩
    · dsimp only
      split
      · exact ⟨rfl, rfl⟩
      · exact flushWriteQueue_read _
  · exact ⟨rfl, rfl⟩

end Transports

end Socket

namespace Turn

/-- The calls that reach the socket while one value is served. -/
def serveCalls (turn : Turn) (value : RespValue) : List SocketCall :=
  match parseCommand value with
  | none => []
  | some cmd =>
      if cmd.name = ascii "AUTH" then
        []
      else if turn.connection.authenticated = false then
        []
      else if cmd.name = ascii "SUBSCRIBE" then
        [.doWrite (.pubSub
          (turn.connection.handleSubscribe
            turn.server.backend.broker cmd).1)]
      else if cmd.name = ascii "UNSUBSCRIBE" then
        match turn.server.backend.broker with
        | none => [.doRead]
        | some broker =>
            [.doWrite (.pubSub
              (turn.connection.handleUnsubscribe broker cmd).1)]
      else
        []

/-- The last call of a read. -/
def finishCall (turn : Turn) : SocketCall :=
  if turn.responses.isEmpty then
    .doRead
  else
    .doWrite (.replies turn.responses)

end Turn

namespace Connection

variable (reserve : Reserve) (clock : Nat → TimePoint)

/-- The values served in one read, each with the state that it found. -/
def served
    (connection : Connection)
    (server : Server)
    (chunk : Bytes) :
    List (Turn × RespValue) :=
  visits (RespParser.decode reserve) (Turn.serve reserve clock)
    (connection.begin server) (connection.parser.buf ++ chunk)

/-- The end of the loop of `handle_data`. -/
def dataTurn
    (connection : Connection)
    (server : Server)
    (chunk : Bytes) :
    Turn :=
  let loop :=
    RespParser.feedEach reserve (Turn.serve reserve clock)
      (connection.begin server) connection.parser chunk
  match loop.ending with
  | .exhausted => loop.state.setParser ⟨loop.rest⟩
  | .left => loop.state.setParser RespParser.empty
  | .faulted exception =>
      { loop.state with
        responses := loop.state.responses ++
          (exceptionReply exception).serialize
        raised := some exception }.setParser RespParser.empty

/-- Whether the request is longer than allowed. -/
def exceedsRequest (connection : Connection) (chunk : Bytes) : Bool :=
  connection.maxRequestBytes <
    connection.parser.bufferedSize + chunk.length

/-- `handle_data` is the check of the size, the loop and its end. -/
theorem handleData_eq_dataTurn
    (connection : Connection)
    (server : Server)
    (chunk : Bytes) :
    connection.handleData reserve clock server chunk =
      if connection.exceedsRequest chunk then
        connection.refuseRequest server
      else
        (connection.dataTurn reserve clock server chunk).finish := by
  simp only [handleData, exceedsRequest, decide_eq_true_eq, dataTurn]
  generalize RespParser.feedEach reserve (Turn.serve reserve clock)
    (connection.begin server) connection.parser chunk = loop
  cases loop.ending <;> rfl

/-- The calls that reach the socket during one read. -/
def handleCalls
    (connection : Connection)
    (server : Server)
    (chunk : Bytes) :
    List SocketCall :=
  if connection.exceedsRequest chunk then
    [.doWrite (.replies (err "ERR max request size exceeded").serialize)]
  else
    (connection.served reserve clock server chunk).flatMap
        (fun visit => visit.1.serveCalls visit.2) ++
      [(connection.dataTurn reserve clock server chunk).finishCall]

end Connection

section Agreement

variable {reserve : Reserve} {clock : Nat → TimePoint}

/-- The effect of a call on the transport alone. -/
def SocketCall.act
    (maxPendingWriteBytes : Nat)
    (transport : Transport) :
    SocketCall → Transport
  | .doRead => transport.doRead
  | .doWrite output => transport.doWrite maxPendingWriteBytes output.bytes

/-- What serving a value leaves alone, and what it does to the transport. -/
structure Turn.Calls
    (turn : Turn)
    (calls : List SocketCall)
    (next : Turn) :
    Prop where
  id : next.connection.id = turn.connection.id
  requirepass :
    next.connection.requirepass = turn.connection.requirepass
  maxRequestBytes :
    next.connection.maxRequestBytes = turn.connection.maxRequestBytes
  maxPendingWriteBytes :
    next.connection.maxPendingWriteBytes =
      turn.connection.maxPendingWriteBytes
  closeAfterWrite :
    next.connection.closeAfterWrite = turn.connection.closeAfterWrite
  transport :
    next.connection.transport =
      calls.foldl
        (SocketCall.act turn.connection.maxPendingWriteBytes)
        turn.connection.transport

theorem Turn.calls_refl
    {turn next : Turn}
    (same : next.connection = turn.connection) :
    turn.Calls [] next :=
  ⟨by rw [same], by rw [same], by rw [same], by rw [same], by rw [same],
    by rw [same]; rfl⟩

/-- The calls of two parts of a turn follow each other. -/
theorem Turn.Calls.trans
    {turn next last : Turn}
    {calls more : List SocketCall}
    (first : turn.Calls calls next)
    (second : next.Calls more last) :
    turn.Calls (calls ++ more) last where
  id := second.id.trans first.id
  requirepass := second.requirepass.trans first.requirepass
  maxRequestBytes := second.maxRequestBytes.trans first.maxRequestBytes
  maxPendingWriteBytes :=
    second.maxPendingWriteBytes.trans first.maxPendingWriteBytes
  closeAfterWrite := second.closeAfterWrite.trans first.closeAfterWrite
  transport := by
    rw [second.transport, first.transport, first.maxPendingWriteBytes,
      List.foldl_append]

theorem Connection.handleAuth_snd
    (connection : Connection)
    (cmd : Command) :
    ∃ authenticated,
      (connection.handleAuth cmd).2 =
        { connection with authenticated := authenticated } := by
  unfold handleAuth
  split
  · split
    · exact ⟨connection.authenticated, rfl⟩
    · split
      · exact ⟨connection.authenticated, rfl⟩
      · exact ⟨true, rfl⟩
  · exact ⟨connection.authenticated, rfl⟩

/-- Executing a command makes no call on the socket. -/
theorem Turn.execute_calls
    (turn : Turn)
    (now : TimePoint)
    (cmd : Command) :
    turn.Calls [] (turn.execute reserve now cmd).state := by
  unfold execute
  split
  · exact calls_refl rfl
  · dsimp only
    split <;> exact calls_refl rfl

/-- Serving a value makes the calls that `serveCalls` lists. -/
theorem Turn.serve_calls
    (turn : Turn)
    (value : RespValue) :
    turn.Calls (turn.serveCalls value)
      (turn.serve reserve clock value).state := by
  unfold serve serveCalls
  cases parseCommand value with
  | none =>
      exact calls_refl rfl
  | some cmd =>
      dsimp only
      by_cases auth : cmd.name = ascii "AUTH"
      · obtain ⟨authenticated, outcome⟩ :=
          turn.connection.handleAuth_snd cmd
        simp only [if_pos auth, Control.state_proceed, outcome]
        exact ⟨rfl, rfl, rfl, rfl, rfl, rfl⟩
      simp only [if_neg auth]
      by_cases refused : turn.connection.authenticated = false
      · simp only [if_pos refused]
        exact calls_refl rfl
      simp only [if_neg refused]
      by_cases joins : cmd.name = ascii "SUBSCRIBE"
      · simp only [if_pos joins]
        exact ⟨rfl, rfl, rfl, rfl, rfl, rfl⟩
      simp only [if_neg joins]
      by_cases leaves : cmd.name = ascii "UNSUBSCRIBE"
      · simp only [if_pos leaves, unsubscribe]
        cases turn.server.backend.broker <;>
          exact ⟨rfl, rfl, rfl, rfl, rfl, rfl⟩
      simp only [if_neg leaves]
      exact execute_calls turn _ cmd

/--
A property of a turn and the values served before it holds at the end of the
loop, if every value keeps it and it does not depend on what the end sets.
-/
theorem Connection.dataTurn_invariant
    (reserve : Reserve)
    (clock : Nat → TimePoint)
    (holds : Turn → List (Turn × RespValue) → Prop)
    (keeps :
      ∀ turn seen value,
        holds turn seen →
        holds (turn.serve reserve clock value).state
          (seen ++ [(turn, value)]))
    (ends :
      ∀ turn seen responses raised parser,
        holds turn seen →
        holds
          ({ turn with
            responses := responses
            raised := raised }.setParser parser) seen)
    {connection : Connection}
    {server : Server}
    (initially : holds (connection.begin server) [])
    (chunk : Bytes) :
    holds (connection.dataTurn reserve clock server chunk)
      (connection.served reserve clock server chunk) := by
  have looped :=
    visits_invariant (RespParser.decode reserve)
      (Turn.serve reserve clock) holds
      (fun turn seen _ value _ _ => keeps turn seen value)
      initially (connection.parser.buf ++ chunk)
  rw [← RespParser.feedEach_eq_consumeAll] at looped
  unfold dataTurn
  dsimp only
  generalize RespParser.feedEach reserve (Turn.serve reserve clock)
    (connection.begin server) connection.parser chunk = loop at looped ⊢
  cases loop.ending with
  | exhausted =>
      exact ends loop.state _ loop.state.responses loop.state.raised _
        looped
  | left =>
      exact ends loop.state _ loop.state.responses loop.state.raised _
        looped
  | faulted exception =>
      exact ends loop.state _ _ _ _ looped

/-- The loop makes the calls of the values it goes through. -/
theorem Connection.dataTurn_calls
    (reserve : Reserve)
    (clock : Nat → TimePoint)
    (connection : Connection)
    (server : Server)
    (chunk : Bytes) :
    (connection.begin server).Calls
      ((connection.served reserve clock server chunk).flatMap
        fun visit => visit.1.serveCalls visit.2)
      (connection.dataTurn reserve clock server chunk) := by
  refine dataTurn_invariant reserve clock
    (fun turn seen =>
      (connection.begin server).Calls
        (seen.flatMap fun visit => visit.1.serveCalls visit.2) turn)
    ?_ ?_ (Turn.calls_refl rfl) chunk
  · intro turn seen value before
    rw [List.flatMap_append, List.flatMap_singleton]
    exact before.trans (turn.serve_calls value)
  · intro turn seen responses raised parser before
    obtain ⟨id, pass, request, pending, closing, transport⟩ := before
    exact ⟨id, pass, request, pending, closing, transport⟩

/-- The transport after a read is what its calls make of it. -/
theorem Connection.handleData_transport
    (reserve : Reserve)
    (clock : Nat → TimePoint)
    (connection : Connection)
    (server : Server)
    (chunk : Bytes) :
    (connection.handleData reserve clock server chunk).connection.transport =
      (connection.handleCalls reserve clock server chunk).foldl
        (SocketCall.act connection.maxPendingWriteBytes)
        connection.transport := by
  rw [handleData_eq_dataTurn]
  unfold handleCalls
  cases connection.exceedsRequest chunk with
  | true =>
      rfl
  | false =>
      have calls := connection.dataTurn_calls reserve clock server chunk
      have before :
          (connection.dataTurn reserve clock server
              chunk).connection.transport =
            ((connection.served reserve clock server chunk).flatMap
                fun visit => visit.1.serveCalls visit.2).foldl
              (SocketCall.act connection.maxPendingWriteBytes)
              connection.transport :=
        calls.transport
      simp only [Bool.false_eq_true, if_false, List.foldl_append]
      generalize connection.dataTurn reserve clock server chunk = turn
        at calls before ⊢
      change turn.finish.connection.transport =
        SocketCall.act connection.maxPendingWriteBytes _ turn.finishCall
      rw [← before]
      unfold Turn.finish Turn.finishCall
      cases turn.responses.isEmpty with
      | true =>
          rfl
      | false =>
          change turn.connection.transport.doWrite
            turn.connection.maxPendingWriteBytes _ = _
          rw [calls.maxPendingWriteBytes]
          rfl

/-- What a read does to the settings and the parser of a connection. -/
structure Connection.AfterData
    (connection : Connection)
    (chunk : Bytes)
    (next : Connection) :
    Prop where
  id : next.id = connection.id
  requirepass : next.requirepass = connection.requirepass
  maxRequestBytes : next.maxRequestBytes = connection.maxRequestBytes
  maxPendingWriteBytes :
    next.maxPendingWriteBytes = connection.maxPendingWriteBytes
  closeAfterWrite :
    next.closeAfterWrite =
      (connection.closeAfterWrite || connection.exceedsRequest chunk)
  parser : next.parser.bufferedSize ≤ connection.maxRequestBytes

/-- What the loop leaves in the parser fits. -/
theorem Connection.bufferedSize_dataTurn
    {connection : Connection}
    {chunk : Bytes}
    (fits : connection.exceedsRequest chunk = false)
    (reserve : Reserve)
    (clock : Nat → TimePoint)
    (server : Server) :
    (connection.dataTurn reserve clock server
        chunk).connection.parser.bufferedSize ≤
      connection.maxRequestBytes := by
  have shorter :=
    length_rest_consumeAll (RespParser.incremental_decode reserve)
      (Turn.serve reserve clock) (connection.begin server)
      (connection.parser.buf ++ chunk)
  rw [← RespParser.feedEach_eq_consumeAll, List.length_append] at shorter
  have whole :
      connection.parser.buf.length + chunk.length ≤
        connection.maxRequestBytes :=
    Nat.not_lt.mp (of_decide_eq_false fits)
  unfold dataTurn
  dsimp only
  generalize RespParser.feedEach reserve (Turn.serve reserve clock)
    (connection.begin server) connection.parser chunk = loop
    at shorter ⊢
  cases loop.ending with
  | exhausted =>
      exact Nat.le_trans shorter whole
  | left | faulted =>
      exact Nat.zero_le _

/-- What a read leaves of the connection. -/
theorem Connection.handleData_afterData
    (reserve : Reserve)
    (clock : Nat → TimePoint)
    (connection : Connection)
    (server : Server)
    (chunk : Bytes) :
    connection.AfterData chunk
      (connection.handleData reserve clock server chunk).connection := by
  rw [handleData_eq_dataTurn]
  cases exceeds : connection.exceedsRequest chunk with
  | true =>
      exact ⟨rfl, rfl, rfl, rfl, by simp [exceeds]; rfl, Nat.zero_le _⟩
  | false =>
      have calls := connection.dataTurn_calls reserve clock server chunk
      have fits :=
        bufferedSize_dataTurn exceeds reserve clock server
      simp only [Bool.false_eq_true, if_false]
      generalize connection.dataTurn reserve clock server chunk = turn
        at calls fits ⊢
      unfold Turn.finish
      split <;>
        exact ⟨calls.id, calls.requirepass, calls.maxRequestBytes,
          calls.maxPendingWriteBytes,
          by rw [exceeds, Bool.or_false]; exact calls.closeAfterWrite, fits⟩

end Agreement

/-- A connection, its idle timeout and what is known of its socket. -/
structure Session where
  connection : Connection
  idleTimeout : Nat
  reads : Nat
  writes : List Bytes
  waits : Nat
  accepted : List Output
  sent : List Bytes

/-- A handler that the event loop runs for a connection. -/
inductive SessionInput where
  | readDone (server : Server) (clock : Nat → TimePoint) (chunk : Bytes)
  | readFailed
  | writeDone
  | writeFailed
  | waitExpired
  | waitAborted
  | push (channel text : Bytes)

namespace Session

/-- The socket of a session. -/
def socket (session : Session) : Socket where
  transport := session.connection.transport
  reads := session.reads
  writes := session.writes
  waits := session.waits
  accepted := session.accepted
  sent := session.sent

/-- The session behind some calls on its socket. -/
def setSocket (session : Session) (socket : Socket) : Session where
  connection :=
    { session.connection with transport := socket.transport }
  idleTimeout := session.idleTimeout
  reads := socket.reads
  writes := socket.writes
  waits := socket.waits
  accepted := socket.accepted
  sent := socket.sent

@[simp] theorem socket_setSocket
    (session : Session)
    (socket : Socket) :
    (session.setSocket socket).socket = socket :=
  rfl

/-- `Connection::start` on a connection that has just been created. -/
def start (connection : Connection) (idleTimeout : Nat) : Session :=
  let fresh : Session := ⟨connection, idleTimeout, 0, [], 0, [], []⟩
  fresh.setSocket (fresh.socket.resetIdleTimer idleTimeout).doRead

/-- The read that has called back is over. -/
def endRead (session : Session) : Socket :=
  { session.socket with
    transport :=
      { session.connection.transport with readInProgress := false }
    reads := session.reads - 1 }

/-- The handler of a read before it calls `handle_data`. -/
def beginData (session : Session) : Session :=
  session.setSocket (session.endRead.resetIdleTimer session.idleTimeout)

/-- What `handle_data` does in the handler of a read. -/
def dataTurn
    (reserve : Reserve)
    (clock : Nat → TimePoint)
    (session : Session)
    (server : Server)
    (chunk : Bytes) :
    Turn :=
  session.beginData.connection.handleData reserve clock server chunk

/-- The handler of a read that has brought a chunk. -/
def readDone
    (reserve : Reserve)
    (clock : Nat → TimePoint)
    (session : Session)
    (server : Server)
    (chunk : Bytes) :
    Session :=
  let begun := session.beginData
  let turn := session.dataTurn reserve clock server chunk
  let calls := begun.connection.handleCalls reserve clock server chunk
  { begun with connection := turn.connection }.setSocket
    (calls.foldl
      (Socket.perform begun.connection.maxPendingWriteBytes) begun.socket)

/-- The handler of a read that has failed. -/
def readFailed (session : Session) : Session :=
  session.setSocket session.endRead.closeSocket

/-- The handler of a write: flush the queue, close, or go on reading. -/
def writeDone (session : Session) : Session :=
  match session.writes with
  | [] => session
  | buffer :: others =>
      let socket :=
        { session.socket with
          writes := others
          sent := session.sent ++ [buffer] }.finishWrite buffer.length
      let idle :=
        { socket with
          transport := { socket.transport with writeInProgress := false } }
      session.setSocket
        (if socket.transport.writeQueue.isEmpty then
          if session.connection.closeAfterWrite then
            idle.closeSocket
          else
            (idle.resetIdleTimer session.idleTimeout).doRead
        else
          socket.flushWriteQueue)

/-- The handler of a write that has failed. -/
def writeFailed (session : Session) : Session :=
  session.setSocket
    { session.socket with writes := session.writes.tail }.closeSocket

/-- The handler of a wait: close an idle connection. -/
def waitExpired (session : Session) : Session :=
  let ended := { session.socket with waits := session.waits - 1 }
  session.setSocket
    (if ended.transport.socketOpen then ended.closeSocket else ended)

/-- The handler of a wait that has been cancelled. -/
def waitAborted (session : Session) : Session :=
  { session with waits := session.waits - 1 }

/-- The task posted by `push_message`. -/
def push (session : Session) (channel text : Bytes) : Session :=
  session.setSocket
    (session.socket.doWrite session.connection.maxPendingWriteBytes
      (.message channel text))

/-- Run one handler; only what is outstanding calls back. -/
def handle (reserve : Reserve) (session : Session) :
    SessionInput → Session
  | .readDone server clock chunk =>
      if session.reads = 0 then
        session
      else
        session.readDone reserve clock server chunk
  | .readFailed =>
      if session.reads = 0 then session else session.readFailed
  | .writeDone => session.writeDone
  | .writeFailed =>
      if session.writes.isEmpty then session else session.writeFailed
  | .waitExpired =>
      if session.waits = 0 then session else session.waitExpired
  | .waitAborted =>
      if session.waits = 0 then session else session.waitAborted
  | .push channel text => session.push channel text

/-- Run handlers one after the other. -/
def after
    (reserve : Reserve)
    (session : Session)
    (inputs : List SessionInput) :
    Session :=
  inputs.foldl (handle reserve) session

/-- The calls of the loop lead to the connection that `handle_data` leaves. -/
theorem perform_transport
    (limit : Nat)
    (calls : List SocketCall)
    (socket : Socket) :
    (calls.foldl (Socket.perform limit) socket).transport =
      calls.foldl (SocketCall.act limit) socket.transport := by
  induction calls generalizing socket with
  | nil =>
      rfl
  | cons call later inductionHypothesis =>
      rw [List.foldl_cons, List.foldl_cons, inductionHypothesis]
      cases call <;> simp [Socket.perform, SocketCall.act]

/-- The commands that a handler answers, with their replies. -/
def answers (reserve : Reserve) (session : Session) :
    SessionInput → List (Command × List RespValue)
  | .readDone server clock chunk =>
      if session.reads = 0 then
        []
      else
        (session.dataTurn reserve clock server chunk).answered
  | _ => []

/-- A read leaves the connection that `handle_data` describes. -/
theorem readDone_connection
    (reserve : Reserve)
    (clock : Nat → TimePoint)
    (session : Session)
    (server : Server)
    (chunk : Bytes) :
    (session.readDone reserve clock server chunk).connection =
      (session.dataTurn reserve clock server chunk).connection := by
  have same :
      (session.beginData.connection.handleCalls reserve clock server
            chunk).foldl
          (SocketCall.act session.beginData.connection.maxPendingWriteBytes)
          session.beginData.socket.transport =
        (session.dataTurn reserve clock server chunk).connection.transport :=
    (session.beginData.connection.handleData_transport reserve clock
      server chunk).symm
  simp only [readDone, setSocket, perform_transport, same]

/-- Only the handler of a read changes more than the transport. -/
theorem handle_connection
    (reserve : Reserve)
    (session : Session)
    (input : SessionInput) :
    (∃ server clock chunk,
        input = .readDone server clock chunk ∧ session.reads ≠ 0 ∧
          (session.handle reserve input).connection =
            (session.dataTurn reserve clock server chunk).connection) ∨
      ∃ transport,
        (session.handle reserve input).connection =
          { session.connection with transport := transport } := by
  cases input with
  | readDone server clock chunk =>
      simp only [handle]
      split
      · exact Or.inr ⟨_, rfl⟩
      · rename_i outstanding
        exact Or.inl ⟨server, clock, chunk, rfl, outstanding,
          session.readDone_connection reserve clock server chunk⟩
  | readFailed | writeFailed | waitExpired | waitAborted =>
      right
      simp only [handle]
      split <;> exact ⟨_, rfl⟩
  | writeDone =>
      right
      simp only [handle, writeDone]
      split <;> exact ⟨_, rfl⟩
  | push channel text =>
      exact Or.inr ⟨_, rfl⟩

/-- Handlers other than that of a read keep all but the transport. -/
theorem handle_connection_of_not_read
    {input : SessionInput}
    (other :
      ∀ server clock chunk, input ≠ .readDone server clock chunk)
    (reserve : Reserve)
    (session : Session) :
    ∃ transport,
      (session.handle reserve input).connection =
        { session.connection with transport := transport } := by
  rcases session.handle_connection reserve input with
    ⟨server, clock, chunk, read, -⟩ | kept
  · exact absurd read (other server clock chunk)
  · exact kept

end Session

end Vortek
