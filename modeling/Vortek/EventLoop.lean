import Vortek.PubSubHistory

namespace Vortek

open IncrementalDecoder Multicast

/-!
# The event loop

The server with all its connections.  The event loop runs one task after the
other: it accepts a client, calls back for an operation that a connection has
outstanding, or takes the oldest delivery that `publish` has posted.

A connection is an object that several things point to: its outstanding
operations, the deliveries posted to it, and the callbacks that the broker
stores for it.  Pointers to a connection are dropped only by its own tasks, so
after each of these the connection is destroyed if none is left (`release`).

The program reads neither `history` nor `released`: these are the record of
what happened, and the connections that were destroyed.
-/

/-- The settings that a server hands to its connections. -/
structure ServerConfig where
  requirepass : Bytes
  maxRequestBytes : Nat
  idleTimeoutSeconds : Nat
  maxClients : Nat
  maxPendingWriteBytes : Nat

/-- The shared state, the connections by address, and the records. -/
structure EventLoop where
  server : Server
  sessions : AList fun _ : Nat => Session
  released : List Session
  history : List Happening

/-- An operation of a connection that has completed. -/
inductive Completion where
  | readDone (clock : Nat → TimePoint) (chunk : Bytes)
  | readFailed
  | writeDone
  | writeFailed
  | waitExpired
  | waitAborted

/-- The handler that a completion runs. -/
def Completion.input (server : Server) : Completion → SessionInput
  | .readDone clock chunk => .readDone server clock chunk
  | .readFailed => .readFailed
  | .writeDone => .writeDone
  | .writeFailed => .writeFailed
  | .waitExpired => .waitExpired
  | .waitAborted => .waitAborted

/-- A task of the event loop. -/
inductive LoopEvent where
  | accept (id : Nat)
  | complete (id : Nat) (completion : Completion)
  | runPosted

/-- The shared state after a completion. -/
def Session.serverAfter
    (reserve : Reserve)
    (session : Session)
    (server : Server) :
    Completion → Server
  | .readDone clock chunk =>
      if session.reads = 0 then
        server
      else
        (session.dataTurn reserve clock server chunk).server
  | _ => server

/-- Only a read that is outstanding does more than move the transport. -/
theorem Session.completion_cases
    (reserve : Reserve)
    (session : Session)
    (server : Server)
    (completion : Completion) :
    (∃ clock chunk,
        completion = .readDone clock chunk ∧ session.reads ≠ 0) ∨
      session.serverAfter reserve server completion = server ∧
        session.answers reserve (completion.input server) = [] ∧
        ∃ transport,
          (session.handle reserve (completion.input server)).connection =
            { session.connection with transport := transport } := by
  cases completion with
  | readDone clock chunk =>
      by_cases none : session.reads = 0
      · right
        simp only [serverAfter, answers, handle, Completion.input, none,
          if_true]
        exact ⟨trivial, trivial, _, rfl⟩
      · exact Or.inl ⟨clock, chunk, rfl, none⟩
  | readFailed | writeDone | writeFailed | waitExpired | waitAborted =>
      exact Or.inr ⟨rfl, rfl,
        handle_connection_of_not_read
          (fun _ _ _ => SessionInput.noConfusion) reserve session⟩

/-- A stored callback points to the connection. -/
def PubSubBroker.holds (broker : PubSubBroker) (id : Nat) : Bool :=
  broker.channels.keys.any fun channel =>
    (broker.row channel).any fun subscriber =>
      subscriber.write.connection = id

/-- In terms of the relation, the broker points to its members. -/
theorem PubSubBroker.Wired.holds_iff
    {broker : PubSubBroker}
    {relation : Finset (Bytes × Nat)}
    (wired : broker.Wired relation)
    (id : Nat) :
    broker.holds id = true ↔ ∃ channel, (channel, id) ∈ relation := by
  simp only [holds, List.any_eq_true, decide_eq_true_eq]
  constructor
  · rintro ⟨channel, -, subscriber, member, points⟩
    rw [wired.callbacks channel subscriber member] at points
    exact ⟨channel, (wired.listed channel id).mp
      (List.mem_map.mpr ⟨subscriber, member, points⟩)⟩
  · rintro ⟨channel, listed⟩
    obtain ⟨subscriber, member, same⟩ :=
      List.mem_map.mp ((wired.listed channel id).mpr listed)
    refine ⟨channel, ?_, subscriber, member, ?_⟩
    · by_contra unlisted
      rw [row, AList.lookup_eq_none.mpr unlisted] at member
      exact List.not_mem_nil member
    · rw [wired.callbacks channel subscriber member]
      exact same

/-- An operation of the connection will still call back. -/
def Session.isPending (session : Session) : Bool :=
  session.reads ≠ 0 || !session.writes.isEmpty || session.waits ≠ 0

/-- A connection starts with a read. -/
theorem Session.isPending_start
    (id : Nat)
    (requirepass : Bytes)
    (maxRequestBytes maxPendingWriteBytes idleTimeout : Nat) :
    (start
      (Connection.create id requirepass maxRequestBytes
        maxPendingWriteBytes) idleTimeout).isPending = true := by
  have reads :
      (start
        (Connection.create id requirepass maxRequestBytes
          maxPendingWriteBytes) idleTimeout).reads = 1 := by
    simp [start, setSocket, socket, Socket.doRead, Connection.create]
  simp [isPending, reads]

namespace EventLoop

/-- A server that has not accepted anyone yet. -/
def start (server : Server) : EventLoop :=
  ⟨server, ∅, [], []⟩

/-- A task of the connection is outstanding or posted. -/
def isBusy (loop : EventLoop) (id : Nat) (session : Session) : Bool :=
  session.isPending ||
    loop.server.backend.posted.any fun delivery =>
      delivery.write.connection = id

/-- Something points to the connection. -/
def isHeld (loop : EventLoop) (id : Nat) (session : Session) : Bool :=
  loop.isBusy id session ||
    match loop.server.backend.broker with
    | none => false
    | some broker => broker.holds id

/-- `Connection::~Connection`. -/
def destroy (loop : EventLoop) (id : Nat) (session : Session) : EventLoop :=
  let backend := loop.server.backend
  { loop with
    server :=
      { loop.server with
        backend :=
          { backend with
            stats :=
              { backend.stats with
                connectedClients := backend.stats.connectedClients - 1 }
            broker :=
              if session.connection.subscribedChannels.members.isEmpty then
                backend.broker
              else
                backend.broker.map fun broker =>
                  (broker.unsubscribeAll id).2 } }
    sessions := loop.sessions.erase id
    released := loop.released ++ [session] }

/-- Destroy a connection that nothing points to any more. -/
def release (loop : EventLoop) (id : Nat) : EventLoop :=
  match loop.sessions.lookup id with
  | none => loop
  | some session =>
      if loop.isHeld id session then loop else loop.destroy id session

/-- `Connection::create` and `Connection::start` for a new client. -/
def addClient
    (config : ServerConfig)
    (loop : EventLoop)
    (id : Nat) :
    EventLoop :=
  let backend := loop.server.backend
  { loop with
    server :=
      { loop.server with
        backend :=
          { backend with
            stats :=
              { backend.stats with
                connectedClients := backend.stats.connectedClients + 1 } } }
    sessions :=
      loop.sessions.insert id
        (Session.start
          (Connection.create id config.requirepass config.maxRequestBytes
            config.maxPendingWriteBytes)
          config.idleTimeoutSeconds)
    history := loop.history ++ [.accepted id] }

/-- The handler of `do_accept`; a new object has an address of its own. -/
def accept
    (config : ServerConfig)
    (loop : EventLoop)
    (id : Nat) :
    EventLoop :=
  if (loop.sessions.lookup id).isSome then
    loop
  else if toInt64 config.maxClients ≤
      loop.server.backend.stats.connectedClients then
    -- The client gets an error, and its socket is closed.
    loop
  else
    loop.addClient config id

/-- The completion of an operation, before its pointer is dropped. -/
def handle
    (reserve : Reserve)
    (loop : EventLoop)
    (id : Nat)
    (session : Session)
    (completion : Completion) :
    EventLoop :=
  let input := completion.input loop.server
  { loop with
    server := session.serverAfter reserve loop.server completion
    sessions := loop.sessions.insert id (session.handle reserve input)
    history :=
      loop.history ++
        (session.answers reserve input).map fun answer =>
          .answered id answer.1 answer.2 }

/-- A posted delivery, before its pointer is dropped. -/
def deliver
    (loop : EventLoop)
    (later : List Delivery)
    (session : Session)
    (delivery : Delivery) :
    EventLoop :=
  { loop with
    server :=
      { loop.server with
        backend := { loop.server.backend with posted := later } }
    sessions :=
      loop.sessions.insert delivery.write.connection
        (session.push delivery.write.channel delivery.message) }

/-- Run one task; only what is outstanding or posted can run. -/
def step
    (config : ServerConfig)
    (reserve : Reserve)
    (loop : EventLoop) :
    LoopEvent → EventLoop
  | .accept id => loop.accept config id
  | .complete id completion =>
      match loop.sessions.lookup id with
      | none => loop
      | some session =>
          (loop.handle reserve id session completion).release id
  | .runPosted =>
      match loop.server.backend.posted with
      | [] => loop
      | delivery :: later =>
          match loop.sessions.lookup delivery.write.connection with
          | none =>
              -- A posted task points to its connection.
              loop
          | some session =>
              (loop.deliver later session delivery).release
                delivery.write.connection

/-- Run tasks one after the other. -/
def run
    (config : ServerConfig)
    (reserve : Reserve)
    (loop : EventLoop)
    (events : List LoopEvent) :
    EventLoop :=
  events.foldl (step config reserve) loop

/-- Who is subscribed to what. -/
def subscriptions (loop : EventLoop) : Finset (Bytes × Nat) :=
  Happening.subscriptions loop.history

/-- The parts of the state agree with each other and with the history. -/
structure Consistent (loop : EventLoop) : Prop where
  broker :
    ∃ broker,
      loop.server.backend.broker = some broker ∧
        broker.Wired loop.subscriptions
  own :
    ∀ id session,
      loop.sessions.lookup id = some session →
      session.connection.id = id
  joined :
    ∀ id session,
      loop.sessions.lookup id = some session →
      ∀ channel,
        channel ∈ session.connection.subscribedChannels.members ↔
          (channel, id) ∈ loop.subscriptions
  live : ∀ pair ∈ loop.subscriptions, pair.2 ∈ loop.sessions
  addressed :
    ∀ delivery ∈ loop.server.backend.posted,
      delivery.write.connection ∈ loop.sessions
  counted :
    loop.server.backend.stats.connectedClients =
      toInt64 loop.sessions.keys.length

/-- Every connection that is still there is pointed to. -/
def Held (loop : EventLoop) : Prop :=
  ∀ id session,
    loop.sessions.lookup id = some session →
    loop.isHeld id session = true

section Steps

variable {loop : EventLoop} {id : Nat} {session : Session}

/-- A turn begins with the subscriptions that the history records. -/
theorem Consistent.agrees
    (consistent : loop.Consistent)
    (found : loop.sessions.lookup id = some session) :
    (session.connection.begin loop.server).Agrees
      (Happening.subscriptions loop.history) := by
  obtain ⟨broker, serves, wired⟩ := consistent.broker
  refine ⟨broker, serves, wired, ?_⟩
  change ∀ channel,
    channel ∈ session.connection.subscribedChannels.members ↔
      (channel, session.connection.id) ∈ loop.subscriptions
  rw [consistent.own id session found]
  exact consistent.joined id session found

/-- A completion extends the history by what it answers. -/
theorem handle_tracks
    (consistent : loop.Consistent)
    (found : loop.sessions.lookup id = some session)
    (reserve : Reserve)
    (completion : Completion) :
    let next := loop.handle reserve id session completion
    let after := session.handle reserve (completion.input loop.server)
    ∃ turn : Turn,
      turn.Tracks loop.history loop.server id ∧
        next.server = turn.server ∧
        next.history = loop.history ++ turn.happenings ∧
        after.connection.id = id ∧
        after.connection.subscribedChannels =
          turn.connection.subscribedChannels := by
  have own := consistent.own id session found
  have agrees := consistent.agrees found
  rcases session.completion_cases reserve loop.server completion with
    ⟨clock, chunk, rfl, outstanding⟩ | ⟨serverSame, silent, transport, same⟩
  · have tracks :
        (session.dataTurn reserve clock loop.server chunk).Tracks
          loop.history loop.server session.connection.id :=
      session.beginData.connection.handleData_tracks agrees reserve clock
        chunk
    rw [own] at tracks
    refine ⟨_, tracks, ?_⟩
    simp only [handle, Completion.input, Session.serverAfter,
      Session.answers, Session.handle, outstanding, if_false,
      Session.readDone_connection]
    refine ⟨trivial, ?_, tracks.own, trivial⟩
    rw [Turn.happenings, tracks.own]
  · have begun := session.connection.tracks_begin agrees
    rw [own] at begun
    refine ⟨_, begun, serverSame, ?_, ?_⟩
    · simp only [handle, silent]
      rfl
    · simp only [same]
      exact ⟨own, rfl⟩

/-- A session that is looked up after an insertion. -/
theorem lookup_insert_cases
    {sessions : AList fun _ : Nat => Session}
    {other : Nat}
    {after one : Session}
    (found : (sessions.insert id after).lookup other = some one) :
    other = id ∧ one = after ∨
      other ≠ id ∧ sessions.lookup other = some one := by
  by_cases same : other = id
  · subst same
    rw [AList.lookup_insert] at found
    exact Or.inl ⟨rfl, (Option.some_injective _ found).symm⟩
  · rw [AList.lookup_insert_ne same] at found
    exact Or.inr ⟨same, found⟩

theorem lookup_of_lookup_erase
    {sessions : AList fun _ : Nat => Session}
    {other : Nat}
    {one : Session}
    (found : (sessions.erase id).lookup other = some one) :
    other ≠ id ∧ sessions.lookup other = some one := by
  have differs : other ≠ id := by
    rintro rfl
    rw [AList.lookup_erase] at found
    cases found
  rw [AList.lookup_erase_ne differs] at found
  exact ⟨differs, found⟩

theorem mem_of_lookup
    (found : loop.sessions.lookup id = some session) :
    id ∈ loop.sessions :=
  AList.lookup_isSome.mp (by rw [found]; rfl)

/-- No one is subscribed under a new address. -/
theorem Consistent.subscriptions_addClient
    (consistent : loop.Consistent)
    (fresh : id ∉ loop.sessions)
    (config : ServerConfig) :
    (loop.addClient config id).subscriptions = loop.subscriptions := by
  rw [subscriptions, EventLoop.addClient, Happening.subscriptions_append]
  refine Finset.filter_true_of_mem fun pair listed own => fresh ?_
  rw [← own]
  exact consistent.live pair listed

/-- A new client has no subscriptions and no deliveries. -/
theorem Consistent.addClient
    (consistent : loop.Consistent)
    (fresh : id ∉ loop.sessions)
    (config : ServerConfig) :
    (loop.addClient config id).Consistent := by
  have same := consistent.subscriptions_addClient fresh config
  refine ⟨?_, ?_, ?_, ?_, ?_, ?_⟩
  · rw [same]
    exact consistent.broker
  · intro other one found
    rcases lookup_insert_cases found with ⟨rfl, rfl⟩ | ⟨-, earlier⟩
    · rfl
    · exact consistent.own other one earlier
  · intro other one found channel
    rw [same]
    rcases lookup_insert_cases found with ⟨rfl, rfl⟩ | ⟨-, earlier⟩
    · refine iff_of_false List.not_mem_nil fun listed => fresh ?_
      exact consistent.live _ listed
    · exact consistent.joined other one earlier channel
  · intro pair listed
    rw [same] at listed
    exact (AList.mem_insert _).mpr (Or.inr (consistent.live pair listed))
  · intro delivery posted
    exact (AList.mem_insert _).mpr
      (Or.inr (consistent.addressed delivery posted))
  · rw [EventLoop.addClient, length_keys_insert_of_not_mem fresh,
      toInt64_succ, ← consistent.counted]

/-- A handler changes the subscriptions as the history says. -/
theorem Consistent.handle
    (consistent : loop.Consistent)
    (found : loop.sessions.lookup id = some session)
    (reserve : Reserve)
    (completion : Completion) :
    (loop.handle reserve id session completion).Consistent := by
  obtain ⟨turn, tracks, serves, happened, own, joined⟩ :=
    handle_tracks consistent found reserve completion
  obtain ⟨broker, served, agree⟩ := tracks.agrees
  obtain ⟨sent, posts, reach, -⟩ := tracks.posted
  refine ⟨⟨broker, ?_, ?_⟩, ?_, ?_, ?_, ?_, ?_⟩
  · rw [serves]
    exact served
  · rw [subscriptions, happened]
    exact agree.wired
  · intro other one inserted
    rcases lookup_insert_cases inserted with ⟨rfl, rfl⟩ | ⟨-, earlier⟩
    · exact own
    · exact consistent.own other one earlier
  · intro other one inserted channel
    rw [subscriptions, happened]
    rcases lookup_insert_cases inserted with ⟨rfl, rfl⟩ | ⟨differs, earlier⟩
    · rw [joined, agree.joined, tracks.own]
    · rw [tracks.others channel other differs]
      exact consistent.joined other one earlier channel
  · intro pair listed
    rw [subscriptions, happened] at listed
    refine (AList.mem_insert _).mpr ?_
    by_cases same : pair.2 = id
    · exact Or.inl same
    · exact Or.inr (consistent.live pair
        ((tracks.others pair.1 pair.2 same).mp listed))
  · intro delivery member
    rw [serves, posts] at member
    refine (AList.mem_insert _).mpr ?_
    rcases List.mem_append.mp member with earlier | now
    · exact Or.inr (consistent.addressed delivery earlier)
    · exact (reach delivery now).imp_right (consistent.live _)
  · rw [serves, tracks.clients, consistent.counted]
    exact congrArg toInt64
      (length_keys_insert_of_mem (mem_of_lookup found) _).symm

/-- A delivery takes the first posted message. -/
theorem Consistent.deliver
    {delivery : Delivery}
    {later : List Delivery}
    (consistent : loop.Consistent)
    (posted : loop.server.backend.posted = delivery :: later)
    (found :
      loop.sessions.lookup delivery.write.connection = some session) :
    (loop.deliver later session delivery).Consistent := by
  refine ⟨consistent.broker, ?_, ?_, ?_, ?_, ?_⟩
  · intro other one inserted
    rcases lookup_insert_cases inserted with ⟨rfl, rfl⟩ | ⟨-, earlier⟩
    · exact consistent.own _ session found
    · exact consistent.own other one earlier
  · intro other one inserted channel
    rcases lookup_insert_cases inserted with ⟨rfl, rfl⟩ | ⟨-, earlier⟩
    · exact consistent.joined _ session found channel
    · exact consistent.joined other one earlier channel
  · intro pair listed
    exact (AList.mem_insert _).mpr (Or.inr (consistent.live pair listed))
  · intro one member
    refine (AList.mem_insert _).mpr (Or.inr (consistent.addressed one ?_))
    rw [posted]
    exact List.mem_cons_of_mem _ member
  · exact consistent.counted.trans (congrArg toInt64
      (length_keys_insert_of_mem (mem_of_lookup found) _).symm)

/-- A posted message keeps its connection alive. -/
theorem isBusy_of_posted
    {delivery : Delivery}
    (posted : delivery ∈ loop.server.backend.posted) :
    loop.isBusy delivery.write.connection session = true := by
  rw [isBusy, Bool.or_eq_true, List.any_eq_true]
  exact Or.inr ⟨delivery, posted, decide_eq_true rfl⟩

/-- A connection is pointed to by its tasks and by its subscriptions. -/
theorem Consistent.isHeld_iff
    (consistent : loop.Consistent)
    (id : Nat)
    (session : Session) :
    loop.isHeld id session = true ↔
      loop.isBusy id session = true ∨
        ∃ channel, (channel, id) ∈ loop.subscriptions := by
  obtain ⟨broker, serves, wired⟩ := consistent.broker
  rw [isHeld, serves, Bool.or_eq_true, wired.holds_iff]

/--
The destructor of a connection that nothing points to finds no subscription to
remove.
-/
theorem Consistent.broker_destroy
    (consistent : loop.Consistent)
    (found : loop.sessions.lookup id = some session)
    (dropped : loop.isHeld id session = false) :
    (loop.destroy id session).server.backend.broker =
      loop.server.backend.broker := by
  have none : session.connection.subscribedChannels.members = [] := by
    refine List.eq_nil_iff_forall_not_mem.mpr fun channel member => ?_
    have listed :=
      (consistent.joined id session found channel).mp member
    have held :=
      (consistent.isHeld_iff id session).mpr (Or.inr ⟨channel, listed⟩)
    rw [dropped] at held
    exact Bool.false_ne_true held
  simp only [destroy, none, List.isEmpty_nil, if_true]

/-- A connection is released for one of these reasons, or stays. -/
theorem release_cases
    (loop : EventLoop)
    (id : Nat) :
    (loop.release id = loop ∧
        ∀ session,
          loop.sessions.lookup id = some session →
          loop.isHeld id session = true) ∨
      ∃ session,
        loop.sessions.lookup id = some session ∧
          loop.isHeld id session = false ∧
          loop.release id = loop.destroy id session := by
  unfold release
  cases found : loop.sessions.lookup id with
  | none =>
      exact Or.inl ⟨rfl, fun _ there =>
        absurd there.symm (Option.some_ne_none _)⟩
  | some session =>
      cases held : loop.isHeld id session with
      | true =>
          refine Or.inl ⟨if_pos held, fun one same => ?_⟩
          rw [← Option.some_injective _ same]
          exact held
      | false =>
          refine Or.inr ⟨session, rfl, held, if_neg ?_⟩
          rw [held]
          exact Bool.false_ne_true

/-- Releasing a connection leaves all others where they are. -/
theorem lookup_of_lookup_release
    {other : Nat}
    {one : Session}
    (found : (loop.release id).sessions.lookup other = some one) :
    loop.sessions.lookup other = some one := by
  rcases loop.release_cases id with ⟨same, -⟩ | ⟨session, -, -, gone⟩
  · rwa [same] at found
  · rw [gone] at found
    exact (lookup_of_lookup_erase found).2

/-- A connection is released only when nothing points to it. -/
theorem Consistent.release
    (consistent : loop.Consistent)
    (id : Nat) :
    (loop.release id).Consistent := by
  rcases loop.release_cases id with
    ⟨same, -⟩ | ⟨session, found, dropped, gone⟩
  · rw [same]
    exact consistent
  rw [gone]
  have kept := consistent.broker_destroy found dropped
  have free : ¬(loop.isBusy id session = true ∨
      ∃ channel, (channel, id) ∈ loop.subscriptions) := by
    rw [← consistent.isHeld_iff, dropped]
    exact Bool.false_ne_true
  obtain ⟨broker, serves, wired⟩ := consistent.broker
  refine ⟨⟨broker, kept.trans serves, wired⟩, ?_, ?_, ?_, ?_, ?_⟩
  · intro other one remains
    exact consistent.own other one (lookup_of_lookup_erase remains).2
  · intro other one remains
    exact consistent.joined other one (lookup_of_lookup_erase remains).2
  · intro pair listed
    refine AList.mem_erase.mpr ⟨?_, consistent.live pair listed⟩
    rintro rfl
    exact free (Or.inr ⟨pair.1, listed⟩)
  · intro delivery posted
    refine AList.mem_erase.mpr
      ⟨?_, consistent.addressed delivery posted⟩
    rintro rfl
    exact free (Or.inl (isBusy_of_posted posted))
  · change loop.server.backend.stats.connectedClients - 1 = _
    rw [consistent.counted,
      length_keys_erase_of_mem (mem_of_lookup found), toInt64_succ]
    exact Int64.add_sub_cancel _ _

/-- What keeps a connection alive in one state keeps it alive in another. -/
theorem isHeld_mono
    {next : EventLoop}
    (consistent : loop.Consistent)
    (after : next.Consistent)
    (held : loop.isHeld id session = true)
    (posted :
      ∀ delivery ∈ loop.server.backend.posted,
        delivery.write.connection = id →
        delivery ∈ next.server.backend.posted)
    (stays :
      ∀ channel,
        (channel, id) ∈ loop.subscriptions →
        (channel, id) ∈ next.subscriptions) :
    next.isHeld id session = true := by
  rw [after.isHeld_iff]
  rcases (consistent.isHeld_iff id session).mp held with
    busy | ⟨channel, listed⟩
  · left
    rcases Bool.or_eq_true _ _ ▸ busy with pending | tasks
    · rw [isBusy, pending, Bool.true_or]
    · obtain ⟨delivery, member, own⟩ := List.any_eq_true.mp tasks
      have same := of_decide_eq_true own
      subst same
      exact isBusy_of_posted (posted delivery member rfl)
  · exact Or.inr ⟨channel, stays channel listed⟩

theorem held_addClient
    (consistent : loop.Consistent)
    (held : loop.Held)
    (fresh : id ∉ loop.sessions)
    (config : ServerConfig) :
    (loop.addClient config id).Held := by
  intro other one found
  rcases lookup_insert_cases found with ⟨rfl, rfl⟩ | ⟨-, earlier⟩
  · rw [isHeld, isBusy, Session.isPending_start]
    rfl
  · refine isHeld_mono consistent (consistent.addClient fresh config)
      (held other one earlier) (fun _ member _ => member)
      fun channel listed => ?_
    rw [consistent.subscriptions_addClient fresh]
    exact listed

/-- After a completion, all other connections are still pointed to. -/
theorem held_handle
    (consistent : loop.Consistent)
    (held : loop.Held)
    (found : loop.sessions.lookup id = some session)
    (reserve : Reserve)
    (completion : Completion) :
    ∀ other one,
      other ≠ id →
      (loop.handle reserve id session completion).sessions.lookup other =
        some one →
      (loop.handle reserve id session completion).isHeld other one =
        true := by
  intro other one differs inserted
  obtain ⟨turn, tracks, serves, happened, -, -⟩ :=
    handle_tracks consistent found reserve completion
  obtain ⟨sent, posts, -, -⟩ := tracks.posted
  obtain ⟨same, -⟩ | ⟨-, earlier⟩ := lookup_insert_cases inserted
  · exact absurd same differs
  refine isHeld_mono consistent
    (consistent.handle found reserve completion) (held other one earlier)
    ?_ ?_
  · intro delivery member _
    rw [serves, posts]
    exact List.mem_append_left _ member
  · intro channel listed
    rw [subscriptions, happened]
    exact (tracks.others channel other differs).mpr listed

/-- After a delivery, all other connections are still pointed to. -/
theorem held_deliver
    {delivery : Delivery}
    {later : List Delivery}
    (consistent : loop.Consistent)
    (held : loop.Held)
    (posted : loop.server.backend.posted = delivery :: later)
    (found :
      loop.sessions.lookup delivery.write.connection = some session) :
    ∀ other one,
      other ≠ delivery.write.connection →
      (loop.deliver later session delivery).sessions.lookup other =
        some one →
      (loop.deliver later session delivery).isHeld other one = true := by
  intro other one differs inserted
  obtain ⟨same, -⟩ | ⟨-, earlier⟩ := lookup_insert_cases inserted
  · exact absurd same differs
  refine isHeld_mono consistent (consistent.deliver posted found)
    (held other one earlier) ?_ fun _ listed => listed
  intro task member own
  rw [posted] at member
  rcases List.mem_cons.mp member with rfl | remains
  · exact absurd own.symm differs
  · exact remains

theorem held_release
    (consistent : loop.Consistent)
    (held :
      ∀ other one,
        other ≠ id →
        loop.sessions.lookup other = some one →
        loop.isHeld other one = true) :
    (loop.release id).Held := by
  rcases loop.release_cases id with
    ⟨same, mine⟩ | ⟨session, found, dropped, gone⟩
  · rw [same]
    intro other one there
    by_cases own : other = id
    · subst own
      exact mine one there
    · exact held other one own there
  · have kept := consistent.broker_destroy found dropped
    rw [gone]
    intro other one remains
    obtain ⟨differs, there⟩ := lookup_of_lookup_erase remains
    have still := held other one differs there
    unfold isHeld at still ⊢
    rw [kept]
    exact still

end Steps

/-- What a task does. -/
inductive Progress
    (config : ServerConfig)
    (reserve : Reserve)
    (loop : EventLoop) :
    LoopEvent → EventLoop → Prop where
  | idle
      (event : LoopEvent) :
      Progress config reserve loop event loop
  | admitted
      (id : Nat)
      (fresh : id ∉ loop.sessions) :
      Progress config reserve loop (.accept id) (loop.addClient config id)
  | completed
      (id : Nat)
      (session : Session)
      (completion : Completion)
      (found : loop.sessions.lookup id = some session) :
      Progress config reserve loop (.complete id completion)
        ((loop.handle reserve id session completion).release id)
  | delivered
      (delivery : Delivery)
      (later : List Delivery)
      (session : Session)
      (posted : loop.server.backend.posted = delivery :: later)
      (found :
        loop.sessions.lookup delivery.write.connection = some session) :
      Progress config reserve loop .runPosted
        ((loop.deliver later session delivery).release
          delivery.write.connection)

/-- The state of a server before it accepts anyone. -/
structure Fresh (server : Server) : Prop where
  broker : server.backend.broker = some PubSubBroker.empty
  posted : server.backend.posted = []
  clients : server.backend.stats.connectedClients = 0

/-- The invariant of the event loop. -/
structure Sound (loop : EventLoop) : Prop where
  consistent : loop.Consistent
  held : loop.Held

/-- Every task of a run meets a condition in the state that it finds. -/
def Meets
    (config : ServerConfig)
    (reserve : Reserve)
    (condition : EventLoop → LoopEvent → Prop) :
    EventLoop → List LoopEvent → Prop
  | _, [] => True
  | loop, event :: later =>
      condition loop event ∧
        Meets config reserve condition (loop.step config reserve event)
          later

instance Meets.decidable
    {config : ServerConfig}
    {reserve : Reserve}
    {condition : EventLoop → LoopEvent → Prop}
    [∀ loop event, Decidable (condition loop event)] :
    ∀ loop events, Decidable (Meets config reserve condition loop events)
  | _, [] => .isTrue trivial
  | loop, event :: later =>
      have : Decidable (Meets config reserve condition
          (loop.step config reserve event) later) :=
        Meets.decidable _ later
      inferInstanceAs (Decidable (_ ∧ _))

section Runs

variable {config : ServerConfig} {reserve : Reserve}

/-- What one event of the loop can do. -/
theorem step_progress
    (config : ServerConfig)
    (reserve : Reserve)
    (loop : EventLoop)
    (event : LoopEvent) :
    Progress config reserve loop event
      (loop.step config reserve event) := by
  cases event with
  | accept id =>
      simp only [step, accept]
      split
      · exact .idle _
      · rename_i unused
        split
        · exact .idle _
        · exact .admitted id fun member =>
            unused (AList.lookup_isSome.mpr member)
  | complete id completion =>
      simp only [step]
      split
      · exact .idle _
      · rename_i session found
        exact .completed id session completion found
  | runPosted =>
      simp only [step]
      split
      · exact .idle _
      · rename_i delivery later posted
        split
        · exact .idle _
        · rename_i session found
          exact .delivered delivery later session posted found

theorem sound_start
    {server : Server}
    (fresh : Fresh server) :
    (start server).Sound := by
  refine ⟨⟨⟨PubSubBroker.empty, fresh.broker,
    PubSubBroker.represents_empty, ?_⟩, ?_, ?_, ?_, ?_, ?_⟩, ?_⟩
  · exact fun _ _ member => absurd member List.not_mem_nil
  · exact fun _ _ found => absurd found.symm (Option.some_ne_none _)
  · exact fun _ _ found => absurd found.symm (Option.some_ne_none _)
  · exact fun _ member => absurd member (Finset.notMem_empty _)
  · intro delivery member
    have nothing : delivery ∈ ([] : List Delivery) :=
      fresh.posted ▸ member
    exact absurd nothing List.not_mem_nil
  · exact fresh.clients
  · exact fun _ _ found => absurd found.symm (Option.some_ne_none _)

theorem Sound.step
    {loop : EventLoop}
    (sound : loop.Sound)
    (event : LoopEvent) :
    (loop.step config reserve event).Sound := by
  obtain ⟨consistent, held⟩ := sound
  have progress := loop.step_progress config reserve event
  generalize loop.step config reserve event = next at progress ⊢
  cases progress with
  | idle =>
      exact ⟨consistent, held⟩
  | admitted id fresh =>
      exact ⟨consistent.addClient fresh config,
        held_addClient consistent held fresh config⟩
  | completed id session completion found =>
      have after := consistent.handle found reserve completion
      exact ⟨after.release id, held_release after
        (held_handle consistent held found reserve completion)⟩
  | delivered delivery later session posted found =>
      have after := consistent.deliver posted found
      exact ⟨after.release _, held_release after
        (held_deliver consistent held posted found)⟩

/-- What tasks under a condition keep holds after a run under it. -/
theorem run_invariant
    {condition : EventLoop → LoopEvent → Prop}
    (holds : EventLoop → Prop)
    (keeps :
      ∀ loop event,
        loop.Sound →
        condition loop event →
        holds loop →
        holds (loop.step config reserve event))
    {loop : EventLoop}
    {events : List LoopEvent}
    (sound : loop.Sound)
    (initially : holds loop)
    (meets : Meets config reserve condition loop events) :
    (loop.run config reserve events).Sound ∧
      holds (loop.run config reserve events) := by
  induction events generalizing loop with
  | nil =>
      exact ⟨sound, initially⟩
  | cons event later inductionHypothesis =>
      exact inductionHypothesis (sound.step event)
        (keeps loop event sound meets.1 initially) meets.2

theorem meets_true
    (loop : EventLoop)
    (events : List LoopEvent) :
    Meets config reserve (fun _ _ => True) loop events := by
  induction events generalizing loop with
  | nil =>
      trivial
  | cons event later inductionHypothesis =>
      exact ⟨trivial, inductionHypothesis _⟩

/-- Every run keeps the invariant. -/
theorem Sound.run
    {loop : EventLoop}
    (sound : loop.Sound)
    (events : List LoopEvent) :
    (loop.run config reserve events).Sound :=
  (run_invariant (fun _ => True) (fun _ _ _ _ _ => trivial) sound trivial
    (meets_true loop events)).1

end Runs

end EventLoop

end Vortek
