import Mathlib.Algebra.Order.BigOperators.Group.List
import Vortek.FlowControl
import Vortek.ServerLifecycle

namespace Vortek

open EmittingMachine

/-!
# What a server holds

The settings bound what clients can make a server hold: the number of its
connections, and the bytes that wait in the parsers and write queues of all of
them.  The bound on the bytes also covers connections whose socket is closed but
which are still pointed to.
-/

namespace Socket

/-- The bytes that are being written or wait to be. -/
def held (socket : Socket) : Nat :=
  (socket.writes ++ socket.transport.writeQueue).flatten.length

/-- A socket in order that holds no more than is allowed. -/
structure Within (limit : Nat) (socket : Socket) : Prop where
  sound : socket.Sound limit
  held : socket.held ≤ limit

section Bounds

variable {limit : Nat} {socket : Socket}

/-- On an open socket the byte count is the bound. -/
theorem Sound.held_le
    (sound : socket.Sound limit)
    (isOpen : socket.transport.socketOpen = true) :
    socket.held ≤ limit := by
  have flow := sound.flow isOpen
  rw [held, ← flow.pending]
  exact flow.bounded

theorem held_doRead
    (socket : Socket) :
    socket.doRead.held = socket.held := by
  unfold doRead
  split <;> rfl

theorem held_resetIdleTimer
    (socket : Socket)
    (idleTimeout : Nat) :
    (socket.resetIdleTimer idleTimeout).held = socket.held := by
  unfold resetIdleTimer
  split <;> rfl

/-- The front of the queue goes on being held while it is written. -/
theorem held_flushWriteQueue
    (socket : Socket) :
    socket.flushWriteQueue.held = socket.held := by
  unfold flushWriteQueue
  cases queue : socket.transport.writeQueue with
  | nil =>
      simp only [held, queue]
  | cons front later =>
      dsimp only
      split
      · simp only [held, queue, List.append_assoc, List.cons_append,
          List.nil_append]
      · simp only [held, queue]

theorem socketOpen_flushWriteQueue
    (socket : Socket) :
    socket.flushWriteQueue.transport.socketOpen =
      socket.transport.socketOpen := by
  unfold flushWriteQueue
  split
  · rfl
  · split <;> rfl

/-- A socket that is closed behind `do_write` has taken nothing. -/
theorem held_doWrite
    {output : Output}
    (closed :
      (socket.doWrite limit output).transport.socketOpen = false) :
    (socket.doWrite limit output).held = socket.held := by
  revert closed
  unfold doWrite
  split
  · rename_i isOpen
    split
    · exact fun _ => rfl
    · dsimp only
      split
      · intro closed
        exact absurd (isOpen.symm.trans closed) Bool.noConfusion
      · intro closed
        rw [socketOpen_flushWriteQueue] at closed
        exact absurd (isOpen.symm.trans closed) Bool.noConfusion
  · exact fun _ => rfl

/-- A call keeps the bound. -/
theorem Within.perform
    (within : socket.Within limit)
    (call : SocketCall) :
    (socket.perform limit call).Within limit := by
  have sound := within.sound.perform call
  refine ⟨sound, ?_⟩
  cases isOpen : (socket.perform limit call).transport.socketOpen with
  | true =>
      exact sound.held_le isOpen
  | false =>
      cases call with
      | doRead =>
          rw [Socket.perform, held_doRead]
          exact within.held
      | doWrite output =>
          rw [Socket.perform, held_doWrite isOpen]
          exact within.held

theorem Within.performAll
    (within : socket.Within limit)
    (calls : List SocketCall) :
    (calls.foldl (Socket.perform limit) socket).Within limit := by
  induction calls generalizing socket with
  | nil =>
      exact within
  | cons call later inductionHypothesis =>
      exact inductionHypothesis (within.perform call)

end Bounds

end Socket

namespace Session

/-- The bytes that a connection keeps for its client. -/
def buffered (session : Session) : Nat :=
  session.connection.parser.bufferedSize + session.socket.held

/-- A steady connection with these settings that holds no more than allowed. -/
structure Within
    (maxRequestBytes maxPendingWriteBytes : Nat)
    (session : Session) :
    Prop where
  steady : session.Steady
  request : session.connection.maxRequestBytes = maxRequestBytes
  pending : session.connection.maxPendingWriteBytes = maxPendingWriteBytes
  held : session.socket.held ≤ maxPendingWriteBytes

section Handlers

variable {reserve : Reserve} {session : Session}
variable {maxRequestBytes maxPendingWriteBytes : Nat}

/-- A read adds to what is held by calls only. -/
theorem held_readDone
    (steady : session.Steady)
    (held : session.socket.held ≤ session.connection.maxPendingWriteBytes)
    (outstanding : session.reads ≠ 0)
    (clock : Nat → TimePoint)
    (server : Server)
    (chunk : Bytes) :
    (session.readDone reserve clock server chunk).socket.held ≤
      session.connection.maxPendingWriteBytes := by
  have begun :
      session.beginData.socket.Within
        session.connection.maxPendingWriteBytes := by
    refine ⟨(steady.endRead outstanding).2.resetIdleTimer _, ?_⟩
    rw [beginData, socket_setSocket, Socket.held_resetIdleTimer]
    exact held
  exact (begun.performAll _).held

/-- A write that has called back is no longer held. -/
theorem held_writeDone
    (session : Session) :
    session.writeDone.socket.held ≤ session.socket.held := by
  unfold writeDone
  cases writes : session.writes with
  | nil =>
      exact Nat.le_refl _
  | cons buffer others =>
      have less :
          (others ++ session.connection.transport.writeQueue).flatten.length ≤
            session.socket.held := by
        rw [Socket.held]
        change _ ≤
          (session.writes ++
            session.connection.transport.writeQueue).flatten.length
        rw [writes, List.cons_append, List.flatten_cons, List.length_append]
        exact Nat.le_add_left _ _
      refine Nat.le_trans (Nat.le_of_eq ?_) less
      dsimp only
      rw [socket_setSocket]
      split
      · split
        · rfl
        · rw [Socket.held_doRead, Socket.held_resetIdleTimer]
          rfl
      · rw [Socket.held_flushWriteQueue]
        rfl

theorem held_writeFailed
    (session : Session) :
    session.writeFailed.socket.held ≤ session.socket.held := by
  change
    (session.writes.tail ++
        session.connection.transport.writeQueue).flatten.length ≤
      (session.writes ++
        session.connection.transport.writeQueue).flatten.length
  cases session.writes with
  | nil =>
      exact Nat.le_refl _
  | cons buffer others =>
      rw [List.tail_cons, List.cons_append, List.flatten_cons,
        List.length_append]
      exact Nat.le_add_left _ _

/-- A handler does not change the settings of a connection. -/
theorem handle_settings
    (reserve : Reserve)
    (session : Session)
    (input : SessionInput) :
    (session.handle reserve input).connection.maxRequestBytes =
        session.connection.maxRequestBytes ∧
      (session.handle reserve input).connection.maxPendingWriteBytes =
        session.connection.maxPendingWriteBytes := by
  rcases session.handle_connection reserve input with
    ⟨server, clock, chunk, -, -, same⟩ | ⟨transport, same⟩
  · have after :=
      session.beginData.connection.handleData_afterData reserve clock server
        chunk
    rw [same]
    exact ⟨after.maxRequestBytes, after.maxPendingWriteBytes⟩
  · rw [same]
    exact ⟨rfl, rfl⟩

/-- Every handler keeps the bounds. -/
theorem Within.handle
    (within : session.Within maxRequestBytes maxPendingWriteBytes)
    (input : SessionInput) :
    (session.handle reserve input).Within maxRequestBytes
      maxPendingWriteBytes := by
  obtain ⟨steady, request, pending, held⟩ := within
  obtain ⟨sameRequest, samePending⟩ := session.handle_settings reserve input
  refine ⟨steady.handle input, sameRequest.trans request,
    samePending.trans pending, ?_⟩
  rw [← pending] at held ⊢
  cases input with
  | readDone server clock chunk =>
      simp only [Session.handle]
      split
      · exact held
      · rename_i outstanding
        exact held_readDone steady held outstanding clock server chunk
  | readFailed =>
      simp only [Session.handle]
      split <;> exact held
  | writeDone =>
      exact Nat.le_trans session.held_writeDone held
  | writeFailed =>
      simp only [Session.handle]
      split
      · exact held
      · exact Nat.le_trans session.held_writeFailed held
  | waitExpired =>
      simp only [Session.handle]
      split
      · exact held
      · simp only [Session.waitExpired]
        split <;> exact held
  | waitAborted =>
      simp only [Session.handle]
      split <;> exact held
  | push channel text =>
      have pushed :=
        (Socket.Within.mk steady.sound held).perform
          (.doWrite (.message channel text))
      exact pushed.held

theorem within_start
    (id : Nat)
    (requirepass : Bytes)
    (maxRequestBytes maxPendingWriteBytes idleTimeout : Nat) :
    (start
      (Connection.create id requirepass maxRequestBytes
        maxPendingWriteBytes) idleTimeout).Within maxRequestBytes
      maxPendingWriteBytes := by
  refine ⟨steady_start id requirepass maxRequestBytes maxPendingWriteBytes
    idleTimeout, rfl, rfl, ?_⟩
  rw [start, socket_setSocket, Socket.held_doRead,
    Socket.held_resetIdleTimer]
  exact Nat.zero_le _

theorem Within.buffered_le
    (within : session.Within maxRequestBytes maxPendingWriteBytes) :
    session.buffered ≤ maxRequestBytes + maxPendingWriteBytes := by
  have parser := within.steady.parser
  rw [within.request] at parser
  exact Nat.add_le_add parser within.held

end Handlers

end Session

namespace EventLoop

/-- Something holds of every connection. -/
def Every (holds : Session → Prop) (loop : EventLoop) : Prop :=
  ∀ id session, loop.sessions.lookup id = some session → holds session

section Steps

variable {config : ServerConfig} {reserve : Reserve} {loop : EventLoop}
variable {holds : Session → Prop}

theorem Every.insert
    (every : loop.Every holds)
    {id : Nat}
    {after : Session}
    (kept : holds after)
    {next : EventLoop}
    (sessions : next.sessions = loop.sessions.insert id after) :
    next.Every holds := by
  intro other one found
  rw [sessions] at found
  rcases lookup_insert_cases found with ⟨-, rfl⟩ | ⟨-, earlier⟩
  · exact kept
  · exact every other one earlier

/-- What every handler keeps is kept by every task. -/
theorem Every.step
    (every : loop.Every holds)
    (handles :
      ∀ session input,
        holds session → holds (session.handle reserve input))
    {event : LoopEvent}
    (other : ∀ id, event ≠ .accept id) :
    (loop.step config reserve event).Every holds := by
  have progress := loop.step_progress config reserve event
  generalize loop.step config reserve event = next at progress ⊢
  cases progress with
  | idle =>
      exact every
  | admitted id =>
      exact absurd rfl (other id)
  | completed id session completion found =>
      have handled :
          (loop.handle reserve id session completion).Every holds :=
        every.insert (handles session _ (every id session found)) rfl
      exact fun one found there =>
        handled one found (lookup_of_lookup_release there)
  | delivered delivery later session posted found =>
      have delivered :
          (loop.deliver later session delivery).Every holds :=
        every.insert
          (handles session
            (.push delivery.write.channel delivery.message)
            (every _ session found)) rfl
      exact fun one found there =>
        delivered one found (lookup_of_lookup_release there)

theorem length_keys_release
    (loop : EventLoop)
    (id : Nat) :
    (loop.release id).sessions.keys.length ≤ loop.sessions.keys.length := by
  rcases loop.release_cases id with ⟨same, -⟩ | ⟨session, found, -, gone⟩
  · rw [same]
  · rw [gone, length_keys_erase_of_mem (mem_of_lookup found)]
    exact Nat.le_succ _

/-- Only an accept makes a connection. -/
theorem length_keys_step
    (config : ServerConfig)
    (reserve : Reserve)
    {event : LoopEvent}
    (other : ∀ id, event ≠ .accept id) :
    (loop.step config reserve event).sessions.keys.length ≤
      loop.sessions.keys.length := by
  have progress := loop.step_progress config reserve event
  generalize loop.step config reserve event = next at progress ⊢
  cases progress with
  | idle =>
      exact Nat.le_refl _
  | admitted id =>
      exact absurd rfl (other id)
  | completed id session completion found =>
      refine Nat.le_trans (length_keys_release _ id) (Nat.le_of_eq ?_)
      exact length_keys_insert_of_mem (mem_of_lookup found) _
  | delivered delivery later session posted found =>
      refine Nat.le_trans (length_keys_release _ _) (Nat.le_of_eq ?_)
      exact length_keys_insert_of_mem (mem_of_lookup found) _

end Steps

/-- A sum over all connections. -/
def sumOver (measure : Session → Nat) (loop : EventLoop) : Nat :=
  (loop.sessions.entries.map fun entry => measure entry.2).sum

/-- If each connection is within a bound, so are all of them together. -/
theorem Every.sumOver_le
    {loop : EventLoop}
    {measure : Session → Nat}
    {bound : Nat}
    (every : loop.Every fun session => measure session ≤ bound) :
    loop.sumOver measure ≤ loop.sessions.keys.length * bound := by
  have each :
      ∀ size ∈ loop.sessions.entries.map fun entry => measure entry.2,
        size ≤ bound := by
    intro size member
    obtain ⟨entry, there, rfl⟩ := List.mem_map.mp member
    exact every entry.1 entry.2 (AList.mem_lookup_iff.mpr there)
  have total := List.sum_le_card_nsmul _ bound each
  rw [List.length_map] at total
  rw [AList.keys, List.keys, List.length_map]
  exact total

/-- The bytes that a server keeps for its clients. -/
def buffered (loop : EventLoop) : Nat :=
  loop.sumOver Session.buffered

end EventLoop

namespace Process

/-- How many clients are connected. -/
def clients (process : Process) : Nat :=
  process.loop.sessions.keys.length

/-- A process that holds no more than its settings allow. -/
structure Bounded (config : ServerConfig) (process : Process) : Prop where
  orderly : process.Orderly
  settings : process.config = config
  every :
    process.loop.Every
      (Session.Within config.maxRequestBytes config.maxPendingWriteBytes)
  clients : process.clients ≤ config.maxClients
  counts : process.clients < 2 ^ 63

section Runs

variable {reserve : Reserve} {process : Process} {config : ServerConfig}

theorem Bounded.connectedClients
    (bounded : process.Bounded config) :
    process.loop.server.backend.stats.connectedClients.toInt =
      process.clients := by
  rw [bounded.orderly.sound.consistent.counted]
  exact toInt_toInt64 bounded.counts

/-- A server is full if the limit is reached, or is negative as compared. -/
theorem Bounded.isFull_iff
    (bounded : process.Bounded config)
    (fits : config.maxClients < 2 ^ 64) :
    process.isFull = true ↔
      process.clients = config.maxClients ∨ 2 ^ 63 ≤ config.maxClients := by
  have limit := bounded.clients
  rw [isFull, decide_eq_true_iff, Int64.le_iff_toInt_le,
    bounded.connectedClients, bounded.settings]
  by_cases large : 2 ^ 63 ≤ config.maxClients
  · have negative := toInt_toInt64_neg large fits
    exact iff_of_true (by omega) (Or.inr large)
  · rw [toInt_toInt64 (Nat.lt_of_not_le large)]
    omega

theorem Bounded.step
    (bounded : process.Bounded config)
    (fits : config.maxClients < 2 ^ 64)
    (event : ProcessEvent) :
    (process.step reserve event).Bounded config := by
  have full := bounded.isFull_iff fits
  obtain ⟨orderly, rfl, every, clients, counts⟩ := bounded
  have next := orderly.step reserve event
  obtain ⟨config, change⟩ := orderly.step_loopChange reserve event
  suffices kept :
      (process.step reserve event).loop.Every
          (Session.Within process.config.maxRequestBytes
            process.config.maxPendingWriteBytes) ∧
        (process.step reserve event).loop.sessions.keys.length ≤
          process.config.maxClients ∧
        (process.step reserve event).loop.sessions.keys.length < 2 ^ 63 from
    ⟨next, config, kept.1, kept.2.1, kept.2.2⟩
  generalize process.executes reserve event = dispatches at change
  generalize (process.step reserve event).loop = loop at change ⊢
  cases change with
  | kept | swept | closed =>
      exact ⟨every, clients, counts⟩
  | admitted id free room =>
      have below :
          ¬(process.clients = process.config.maxClients ∨
            2 ^ 63 ≤ process.config.maxClients) := by
        rw [← full, room]
        exact Bool.false_ne_true
      have grown :
          (process.loop.addClient process.config id).sessions.keys.length =
            process.clients + 1 :=
        length_keys_insert_of_not_mem free _
      rw [grown]
      refine ⟨every.insert (Session.within_start id _ _ _ _) rfl, ?_, ?_⟩
      · omega
      · omega
  | ran event other =>
      have fewer : _ ≤ process.clients :=
        EventLoop.length_keys_step process.config reserve other
      exact ⟨every.step (fun _ input within => within.handle input) other,
        Nat.le_trans fewer clients, Nat.lt_of_le_of_lt fewer counts⟩

theorem bounded_after
    (reserve : Reserve)
    (around : Surroundings)
    (cfg : Config)
    (events : List ProcessEvent) :
    ((launch reserve around cfg).after reserve events).Bounded
      cfg.serverConfig := by
  have fits : cfg.serverConfig.maxClients < 2 ^ 64 :=
    cfg.maxClients.toNat_lt
  refine Machine.invariant (Bounded cfg.serverConfig)
    (fun _ event before => before.step fits event) ?_ events
  exact ⟨orderly_launch around cfg, rfl,
    fun _ _ found => absurd found.symm (Option.some_ne_none _),
    Nat.zero_le _, Nat.pow_pos (Nat.zero_lt_succ 1)⟩

end Runs

/--
A server never has more clients than its limit, and counts them exactly.  It is
full exactly if the limit is reached; a limit from `2 ^ 63` on is negative where
it is compared, and such a server is always full.
-/
theorem clients_within_limit
    (reserve : Reserve)
    (around : Surroundings)
    (cfg : Config)
    (events : List ProcessEvent) :
    let process := (launch reserve around cfg).after reserve events
    process.clients ≤ cfg.maxClients.toNat ∧
      process.loop.server.backend.stats.connectedClients.toInt =
        process.clients ∧
      (process.isFull = true ↔
        process.clients = cfg.maxClients.toNat ∨
          2 ^ 63 ≤ cfg.maxClients.toNat) := by
  intro process
  have bounded : process.Bounded cfg.serverConfig :=
    bounded_after reserve around cfg events
  exact ⟨bounded.clients, bounded.connectedClients,
    bounded.isFull_iff cfg.maxClients.toNat_lt⟩

/--
Whatever clients send, and however slowly they read, the bytes that wait in the
parsers and write queues of all connections are within the product of the
limits.
-/
theorem buffers_within_limits
    (reserve : Reserve)
    (around : Surroundings)
    (cfg : Config)
    (events : List ProcessEvent) :
    ((launch reserve around cfg).after reserve events).loop.buffered ≤
      cfg.maxClients.toNat *
        (cfg.maxRequestBytes.toNat + cfg.maxPendingWriteBytes.toNat) := by
  have bounded := bounded_after reserve around cfg events
  have each :
      ((launch reserve around cfg).after reserve events).loop.Every
        fun session =>
          session.buffered ≤
            cfg.maxRequestBytes.toNat + cfg.maxPendingWriteBytes.toNat :=
    fun id session found => (bounded.every id session found).buffered_le
  exact Nat.le_trans each.sumOver_le
    (Nat.mul_le_mul_right _ bounded.clients)

end Process

end Vortek
