import Vortek.Session

namespace Vortek

/-!
# Flow control

A session has at most one read and one write outstanding, its byte count is the
size of what is still to be written, and it never waits for nothing.  These
facts hold between handlers while the socket is open; a handler may suspend
them, so the part that every call keeps (`Socket.Flow`) is separated from the
part that holds again at the end of a handler.
-/

/-- What every call keeps on an open socket. -/
structure Socket.Flow (limit : Nat) (socket : Socket) : Prop where
  writes :
    socket.writes =
      if socket.transport.writeInProgress then
        [socket.transport.writeBuf]
      else
        []
  queue :
    socket.transport.writeInProgress = false →
    socket.transport.writeQueue = []
  pending :
    socket.transport.pendingWriteBytes =
      (socket.writes ++ socket.transport.writeQueue).flatten.length
  bounded : socket.transport.pendingWriteBytes ≤ limit
  order :
    socket.sent ++ socket.writes ++ socket.transport.writeQueue =
      socket.accepted.map Output.bytes

/-- The flag of a read is right, and an open socket is in order. -/
structure Socket.Sound (limit : Nat) (socket : Socket) : Prop where
  reads :
    socket.reads = if socket.transport.readInProgress then 1 else 0
  flow : socket.transport.socketOpen = true → socket.Flow limit

namespace Socket

variable {limit : Nat} {socket : Socket}

/-- A closed socket has nothing to keep but the flag of the read. -/
theorem Sound.closeSocket
    (sound : socket.Sound limit) :
    socket.closeSocket.Sound limit :=
  ⟨sound.reads, fun isOpen => Bool.noConfusion isOpen⟩

theorem Sound.resetIdleTimer
    (sound : socket.Sound limit)
    (idleTimeout : Nat) :
    (socket.resetIdleTimer idleTimeout).Sound limit := by
  unfold Socket.resetIdleTimer
  split
  · exact sound
  · exact ⟨sound.reads, fun isOpen =>
      let flow := sound.flow isOpen
      ⟨flow.writes, flow.queue, flow.pending, flow.bounded, flow.order⟩⟩

theorem Sound.doRead
    (sound : socket.Sound limit) :
    socket.doRead.Sound limit := by
  unfold Socket.doRead
  split
  · exact sound
  · rename_i free
    simp only [Bool.or_eq_true, not_or, Bool.not_eq_true] at free
    refine ⟨?_, fun isOpen => ?_⟩
    · change socket.reads + 1 = 1
      rw [sound.reads, free.1]
      rfl
    · obtain ⟨writes, queue, pending, bounded, order⟩ := sound.flow isOpen
      exact ⟨writes, queue, pending, bounded, order⟩

/-- No write is outstanding, whatever the flag says. -/
structure Ready (limit : Nat) (socket : Socket) : Prop where
  idle : socket.writes = []
  pending :
    socket.transport.pendingWriteBytes =
      socket.transport.writeQueue.flatten.length
  bounded : socket.transport.pendingWriteBytes ≤ limit
  order :
    socket.sent ++ socket.transport.writeQueue =
      socket.accepted.map Output.bytes

/-- A socket without a write starts to write the front of its queue. -/
theorem sound_flushWriteQueue
    (reads :
      socket.reads = if socket.transport.readInProgress then 1 else 0)
    (queued : socket.transport.writeQueue ≠ [])
    (ready : socket.transport.socketOpen = true → socket.Ready limit) :
    socket.flushWriteQueue.Sound limit := by
  obtain ⟨sameReads, sameFlag⟩ := socket.flushWriteQueue_read
  refine ⟨by rw [sameReads, sameFlag]; exact reads, ?_⟩
  obtain ⟨front, later, queue⟩ := List.exists_cons_of_ne_nil queued
  unfold flushWriteQueue
  simp only [queue]
  split
  · rename_i isOpen
    intro _
    obtain ⟨idle, pending, bounded, order⟩ := ready isOpen
    rw [queue] at pending order
    simp only [idle, List.nil_append]
    exact ⟨rfl, fun stopped => Bool.noConfusion stopped, pending,
      bounded, by simpa using order⟩
  · intro isOpen
    contradiction

/-- A socket that has nothing to write is in order when its flag says so. -/
theorem sound_of_ready
    (reads :
      socket.reads = if socket.transport.readInProgress then 1 else 0)
    (stopped : socket.transport.writeInProgress = false)
    (nothing : socket.transport.writeQueue = [])
    (ready : socket.transport.socketOpen = true → socket.Ready limit) :
    socket.Sound limit := by
  refine ⟨reads, fun isOpen => ?_⟩
  obtain ⟨idle, pending, bounded, order⟩ := ready isOpen
  refine ⟨?_, fun _ => nothing, ?_, bounded, ?_⟩
  · rw [idle, stopped]
    rfl
  · rw [idle]
    exact pending
  · rw [idle, List.append_nil]
    exact order

/-- A string is queued behind the others, or the socket is closed. -/
theorem Sound.doWrite
    (sound : socket.Sound limit)
    (output : Output) :
    (socket.doWrite limit output).Sound limit := by
  unfold Socket.doWrite
  split
  · rename_i isOpen
    obtain ⟨writes, queue, pending, bounded, order⟩ := sound.flow isOpen
    split
    · exact sound.closeSocket
    · rename_i fits
      dsimp only
      cases writing : socket.transport.writeInProgress with
      | true =>
          simp only [if_true]
          refine ⟨sound.reads, fun _ => ⟨?_, ?_, ?_, ?_, ?_⟩⟩
          · rw [writes, writing]
          · simp
          · simp [pending]
            omega
          · exact Nat.not_lt.mp fits
          · rw [List.map_append, ← order]
            simp
      | false =>
          have nothing := queue writing
          simp only [writing, Bool.false_eq_true, if_false] at writes ⊢
          refine sound_flushWriteQueue sound.reads (by simp)
            fun _ => ⟨writes, ?_, Nat.not_lt.mp fits, ?_⟩
          · simp [pending, writes]
          · rw [List.map_append, ← order]
            simp [writes]
  · exact sound

theorem Sound.perform
    (sound : socket.Sound limit)
    (call : SocketCall) :
    (socket.perform limit call).Sound limit := by
  cases call with
  | doRead =>
      exact sound.doRead
  | doWrite output =>
      exact sound.doWrite output

/-- Any calls on the socket keep the invariant. -/
theorem Sound.performAll
    (sound : socket.Sound limit)
    (calls : List SocketCall) :
    (calls.foldl (Socket.perform limit) socket).Sound limit := by
  induction calls generalizing socket with
  | nil =>
      exact sound
  | cons call later inductionHypothesis =>
      exact inductionHypothesis (sound.perform call)

/-- Something is outstanding, if the socket is open. -/
def Busy (socket : Socket) : Prop :=
  socket.transport.socketOpen = true →
    socket.transport.readInProgress = true ∨
      socket.transport.writeInProgress = true

/-- After `do_read` an open socket has a read outstanding. -/
theorem busy_doRead
    (socket : Socket) :
    socket.doRead.Busy := by
  unfold Socket.doRead
  split
  · rename_i blocked
    intro isOpen
    simp only [isOpen, Bool.not_true, Bool.or_false] at blocked
    exact Or.inl blocked
  · exact fun _ => Or.inl rfl

theorem busy_flushWriteQueue
    (queued : socket.transport.writeQueue ≠ []) :
    socket.flushWriteQueue.Busy := by
  unfold flushWriteQueue
  split
  · rename_i nothing
    exact absurd nothing queued
  · split
    · exact fun _ => Or.inr rfl
    · intro isOpen
      contradiction

theorem busy_doWrite
    (limit : Nat)
    (socket : Socket)
    (output : Output) :
    (socket.doWrite limit output).Busy := by
  unfold Socket.doWrite
  split
  · split
    · exact fun isOpen => Bool.noConfusion isOpen
    · dsimp only
      split
      · rename_i writing
        exact fun _ => Or.inr writing
      · exact busy_flushWriteQueue (by simp)
  · intro isOpen
    contradiction

/-- After a call something is outstanding, unless the socket is closed. -/
theorem busy_perform
    (limit : Nat)
    (socket : Socket)
    (call : SocketCall) :
    (socket.perform limit call).Busy := by
  cases call with
  | doRead =>
      exact busy_doRead socket
  | doWrite output =>
      exact busy_doWrite limit socket output

end Socket

/-- Every read ends with a call. -/
theorem Connection.handleCalls_eq_concat
    (reserve : Reserve)
    (clock : Nat → TimePoint)
    (connection : Connection)
    (server : Server)
    (chunk : Bytes) :
    ∃ earlier last,
      connection.handleCalls reserve clock server chunk =
        earlier ++ [last] := by
  unfold handleCalls
  split
  · exact ⟨[], _, rfl⟩
  · exact ⟨_, _, rfl⟩

namespace Session

/-- What holds of a session between handlers. -/
structure Steady (session : Session) : Prop where
  sound : session.socket.Sound session.connection.maxPendingWriteBytes
  busy : session.socket.Busy
  parser :
    session.connection.parser.bufferedSize ≤
      session.connection.maxRequestBytes
  closing : session.connection.closeAfterWrite = true → session.reads = 0

section Steps

variable {reserve : Reserve} {session : Session}

theorem steady_start
    (id : Nat)
    (requirepass : Bytes)
    (maxRequestBytes maxPendingWriteBytes idleTimeout : Nat) :
    (start
      (Connection.create id requirepass maxRequestBytes
        maxPendingWriteBytes) idleTimeout).Steady := by
  have fresh :
      Socket.Sound maxPendingWriteBytes
        ⟨⟨true, false, false, 0, [], []⟩, 0, [], 0, [], []⟩ :=
    ⟨rfl, fun _ => ⟨rfl, fun _ => rfl, rfl, Nat.zero_le _, rfl⟩⟩
  exact ⟨(fresh.resetIdleTimer idleTimeout).doRead,
    Socket.busy_doRead _, Nat.zero_le _,
    fun closing => Bool.noConfusion closing⟩

/-- A new socket that is in order makes a steady session. -/
theorem Steady.setSocket
    (steady : session.Steady)
    {socket : Socket}
    (sound : socket.Sound session.connection.maxPendingWriteBytes)
    (busy : socket.Busy)
    (closing : session.connection.closeAfterWrite = true → socket.reads = 0) :
    (session.setSocket socket).Steady :=
  ⟨sound, busy, steady.parser, closing⟩

/-- A closed socket is in order and waits for nothing. -/
theorem Steady.close
    (steady : session.Steady)
    {socket : Socket}
    (reads :
      socket.reads = if socket.transport.readInProgress then 1 else 0)
    (closing :
      session.connection.closeAfterWrite = true → socket.reads = 0) :
    (session.setSocket socket.closeSocket).Steady :=
  ⟨⟨reads, fun isOpen => Bool.noConfusion isOpen⟩,
    fun isOpen => Bool.noConfusion isOpen, steady.parser, closing⟩

/-- The read that calls back was the only one. -/
theorem Steady.endRead
    (steady : session.Steady)
    (outstanding : session.reads ≠ 0) :
    session.reads = 1 ∧
      session.endRead.Sound session.connection.maxPendingWriteBytes := by
  have one : session.reads = 1 := by
    have reads := steady.sound.reads
    change session.reads = _ at reads
    split at reads
    · exact reads
    · exact absurd reads outstanding
  refine ⟨one, ?_, fun isOpen => ?_⟩
  · change session.reads - 1 = 0
    rw [one]
  · obtain ⟨writes, queue, pending, bounded, order⟩ :=
      steady.sound.flow isOpen
    exact ⟨writes, queue, pending, bounded, order⟩

/-- The end of a read starts another read or a write. -/
theorem Steady.readDone
    (steady : session.Steady)
    (outstanding : session.reads ≠ 0)
    (clock : Nat → TimePoint)
    (server : Server)
    (chunk : Bytes) :
    (session.readDone reserve clock server chunk).Steady := by
  obtain ⟨one, ended⟩ := steady.endRead outstanding
  have begun :
      session.beginData.socket.Sound
        session.beginData.connection.maxPendingWriteBytes :=
    ended.resetIdleTimer session.idleTimeout
  have data :=
    session.beginData.connection.handleData_afterData reserve clock
      server chunk
  have same := session.readDone_connection reserve clock server chunk
  constructor
  · rw [same]
    unfold dataTurn
    rw [data.maxPendingWriteBytes]
    exact begun.performAll _
  · change (List.foldl _ session.beginData.socket _).Busy
    obtain ⟨earlier, last, calls⟩ :=
      session.beginData.connection.handleCalls_eq_concat reserve clock
        server chunk
    rw [calls, List.foldl_append]
    exact Socket.busy_perform _ _ last
  · rw [same]
    unfold dataTurn
    rw [data.maxRequestBytes]
    exact data.parser
  · rw [same]
    unfold dataTurn
    rw [data.closeAfterWrite]
    intro closing
    have exceeds :
        session.beginData.connection.exceedsRequest chunk = true := by
      cases before : session.connection.closeAfterWrite with
      | true =>
          exact absurd (steady.closing before) outstanding
      | false =>
          change (session.connection.closeAfterWrite || _) = true at closing
          rw [before, Bool.false_or] at closing
          exact closing
    change (List.foldl _ session.beginData.socket _).reads = 0
    unfold Connection.handleCalls
    rw [exceeds, if_pos rfl]
    refine (Socket.doWrite_read _ _ _).1.trans ?_
    refine (Socket.reads_resetIdleTimer _ session.endRead).trans ?_
    change session.reads - 1 = 0
    rw [one]

/-- The socket after the only write has called back. -/
theorem Steady.ready_writeDone
    (steady : session.Steady)
    {buffer : Bytes}
    {others : List Bytes}
    (writes : session.writes = buffer :: others)
    (isOpen : session.connection.transport.socketOpen = true) :
    ({ session.socket with
      writes := others
      sent := session.sent ++ [buffer] }.finishWrite
        buffer.length).Ready session.connection.maxPendingWriteBytes := by
  obtain ⟨shape, queue, pending, bounded, order⟩ :=
    steady.sound.flow isOpen
  change session.writes = _ at shape
  rw [writes] at shape
  have alone : others = [] := by
    split at shape
    · exact (List.cons.inj shape).2
    · cases shape
  change session.sent ++ session.writes ++ _ = _ at order
  change _ = (session.writes ++ _).flatten.length at pending
  rw [writes, alone] at order pending
  simp only [List.cons_append, List.nil_append, List.flatten_cons,
    List.length_append] at pending
  refine ⟨alone, ?_, ?_, ?_⟩
  · simp only [Socket.finishWrite]
    rw [if_pos (by omega), pending]
    exact Nat.add_sub_cancel_left _ _
  · simp only [Socket.finishWrite]
    rw [if_pos (by omega)]
    exact Nat.le_trans (Nat.sub_le _ _) bounded
  · exact order

/-- The end of a write continues with the queue. -/
theorem Steady.writeDone
    (steady : session.Steady) :
    session.writeDone.Steady := by
  unfold Session.writeDone
  split
  · exact steady
  · rename_i buffer others writes
    have ready := steady.ready_writeDone writes
    dsimp only
    generalize done :
      ({ session.socket with
        writes := others
        sent := session.sent ++ [buffer] }.finishWrite buffer.length) =
          socket at ready ⊢
    have reads :
        socket.reads = if socket.transport.readInProgress then 1 else 0 := by
      rw [← done]
      exact steady.sound.reads
    have closing :
        session.connection.closeAfterWrite = true → socket.reads = 0 := by
      rw [← done]
      exact steady.closing
    have stillOpen :
        socket.transport.socketOpen =
          session.connection.transport.socketOpen := by
      rw [← done]
      rfl
    rw [← stillOpen] at ready
    split
    · rename_i nothing
      split
      · exact steady.close reads closing
      · rename_i staying
        refine steady.setSocket ?_ (Socket.busy_doRead _)
          fun closing => absurd closing staying
        refine Socket.Sound.doRead (Socket.Sound.resetIdleTimer ?_ _)
        refine Socket.sound_of_ready reads rfl
          (List.isEmpty_iff.mp nothing) fun isOpen => ?_
        obtain ⟨idle, pending, bounded, order⟩ := ready isOpen
        exact ⟨idle, pending, bounded, order⟩
    · rename_i queued
      have filled : socket.transport.writeQueue ≠ [] :=
        fun nothing => queued (List.isEmpty_iff.mpr nothing)
      refine steady.setSocket
        (Socket.sound_flushWriteQueue reads filled ready)
        (Socket.busy_flushWriteQueue filled) fun close => ?_
      rw [(Socket.flushWriteQueue_read socket).1]
      exact closing close

theorem Steady.push
    (steady : session.Steady)
    (channel text : Bytes) :
    (session.push channel text).Steady := by
  refine steady.setSocket (steady.sound.doWrite _)
    (Socket.busy_doWrite _ _ _) fun closing => ?_
  rw [(Socket.doWrite_read _ _ _).1]
  exact steady.closing closing

/-- Every handler leaves a steady session. -/
theorem Steady.handle
    (steady : session.Steady)
    (input : SessionInput) :
    (session.handle reserve input).Steady := by
  cases input with
  | readDone server clock chunk =>
      simp only [Session.handle]
      split
      · exact steady
      · rename_i outstanding
        exact steady.readDone outstanding clock server chunk
  | readFailed =>
      simp only [Session.handle]
      split
      · exact steady
      · rename_i outstanding
        obtain ⟨one, ended⟩ := steady.endRead outstanding
        refine steady.close ended.reads fun closing => ?_
        exact absurd (steady.closing closing) outstanding
  | writeDone =>
      exact steady.writeDone
  | writeFailed =>
      simp only [Session.handle]
      split
      · exact steady
      · exact steady.close steady.sound.reads steady.closing
  | waitExpired =>
      simp only [Session.handle]
      split
      · exact steady
      · simp only [Session.waitExpired]
        split
        · exact steady.close steady.sound.reads steady.closing
        · rename_i closed
          exact steady.setSocket
            ⟨steady.sound.reads, fun isOpen => absurd isOpen closed⟩
            (fun isOpen => absurd isOpen closed) steady.closing
  | waitAborted =>
      simp only [Session.handle]
      split
      · exact steady
      · refine ⟨⟨steady.sound.reads, fun isOpen => ?_⟩, steady.busy,
          steady.parser, steady.closing⟩
        obtain ⟨writes, queue, pending, bounded, order⟩ :=
          steady.sound.flow isOpen
        exact ⟨writes, queue, pending, bounded, order⟩
  | push channel text =>
      exact steady.push channel text

/-- A session stays steady, whatever completes. -/
theorem Steady.after
    (steady : session.Steady)
    (inputs : List SessionInput) :
    (session.after reserve inputs).Steady := by
  induction inputs generalizing session with
  | nil =>
      exact steady
  | cons input later inductionHypothesis =>
      exact inductionHypothesis (steady.handle input)

/-- A connection that is to be closed stays so. -/
theorem closeAfterWrite_after
    (closing : session.connection.closeAfterWrite = true)
    (inputs : List SessionInput) :
    (session.after reserve inputs).connection.closeAfterWrite = true := by
  induction inputs generalizing session with
  | nil =>
      exact closing
  | cons input later inductionHypothesis =>
      refine inductionHypothesis ?_
      rcases session.handle_connection reserve input with
        ⟨server, clock, chunk, -, -, same⟩ | ⟨transport, same⟩
      · have data :=
          session.beginData.connection.handleData_afterData reserve clock
            server chunk
        rw [same]
        unfold dataTurn
        rw [data.closeAfterWrite, Bool.or_eq_true]
        exact Or.inl closing
      · rw [same]
        exact closing

end Steps

/-- What flow control promises while the socket is open. -/
structure FlowControlled (session : Session) : Prop where
  oneRead :
    session.reads =
      if session.connection.transport.readInProgress then 1 else 0
  oneWrite :
    session.writes =
      if session.connection.transport.writeInProgress then
        [session.connection.transport.writeBuf]
      else
        []
  pending :
    session.connection.transport.pendingWriteBytes =
      (session.writes ++
        session.connection.transport.writeQueue).flatten.length
  bounded :
    session.connection.transport.pendingWriteBytes ≤
      session.connection.maxPendingWriteBytes
  neverClamped :
    ∀ buffer ∈ session.writes,
      buffer.length ≤ session.connection.transport.pendingWriteBytes
  neverStalls :
    session.connection.transport.readInProgress = true ∨
      session.connection.transport.writeInProgress = true
  inOrder :
    session.sent ++ session.writes ++
        session.connection.transport.writeQueue =
      session.accepted.map Output.bytes
  parser :
    session.connection.parser.bufferedSize ≤
      session.connection.maxRequestBytes

theorem Steady.flowControlled
    {session : Session}
    (steady : session.Steady)
    (isOpen : session.connection.transport.socketOpen = true) :
    session.FlowControlled := by
  obtain ⟨writes, queue, pending, bounded, order⟩ :=
    steady.sound.flow isOpen
  refine ⟨steady.sound.reads, writes, pending, bounded, ?_,
    steady.busy isOpen, order, steady.parser⟩
  intro buffer member
  have fits :=
    (List.sublist_flatten_of_mem (List.mem_append_left
      session.connection.transport.writeQueue member)).length_le
  exact Nat.le_trans fits (Nat.le_of_eq pending.symm)

/--
Between handlers, an open socket is under flow control.  Once the connection is
to be closed, no read is outstanding or started, and no command is answered.
-/
theorem flow_control
    (reserve : Reserve)
    (id : Nat)
    (requirepass : Bytes)
    (maxRequestBytes maxPendingWriteBytes idleTimeout : Nat)
    (inputs : List SessionInput) :
    let session :=
      (start
        (Connection.create id requirepass maxRequestBytes
          maxPendingWriteBytes) idleTimeout).after reserve inputs
    (session.connection.transport.socketOpen = true →
        session.FlowControlled) ∧
      (session.connection.closeAfterWrite = true →
        ∀ more,
          (session.after reserve more).reads = 0 ∧
            ∀ input,
              (session.after reserve more).answers reserve input = []) := by
  intro session
  have steady : session.Steady :=
    (steady_start id requirepass maxRequestBytes maxPendingWriteBytes
      idleTimeout).after inputs
  refine ⟨steady.flowControlled, fun closing more => ?_⟩
  have none : (session.after reserve more).reads = 0 :=
    (steady.after more).closing (closeAfterWrite_after closing more)
  refine ⟨none, fun input => ?_⟩
  cases input with
  | readDone server clock chunk =>
      simp only [answers, none, if_true]
  | readFailed | writeDone | writeFailed | waitExpired | waitAborted
  | push =>
      rfl

end Session

end Vortek
