import Vortek.Delivery
import Vortek.ServerBounds

namespace Vortek

open EmittingMachine

/-!
# A server comes to rest

The tasks that a server owes its clients are the deliveries that are posted and
the writes that are outstanding.  Without anything new from a client these run
out, in whatever order the event loop takes them, and then every open connection
has been sent all that it was to be sent and waits for its client.
-/

namespace Socket

/-- The strings that are being written or wait to be. -/
def unsent (socket : Socket) : Nat :=
  socket.writes.length + socket.transport.writeQueue.length

theorem unsent_doRead
    (socket : Socket) :
    socket.doRead.unsent = socket.unsent := by
  unfold doRead
  split <;> rfl

theorem unsent_resetIdleTimer
    (socket : Socket)
    (idleTimeout : Nat) :
    (socket.resetIdleTimer idleTimeout).unsent = socket.unsent := by
  unfold resetIdleTimer
  split <;> rfl

theorem unsent_flushWriteQueue
    (socket : Socket) :
    socket.flushWriteQueue.unsent = socket.unsent := by
  unfold flushWriteQueue
  cases queue : socket.transport.writeQueue with
  | nil =>
      simp only [unsent, queue]
  | cons front later =>
      dsimp only
      split
      · simp only [unsent, queue, List.length_append, List.length_cons,
          List.length_nil]
        omega
      · simp only [unsent, queue]

/-- At most one string is added. -/
theorem unsent_doWrite
    (limit : Nat)
    (socket : Socket)
    (output : Output) :
    (socket.doWrite limit output).unsent ≤ socket.unsent + 1 := by
  unfold doWrite
  split
  · split
    · exact Nat.le_succ _
    · dsimp only
      split
      · simp only [unsent, List.length_append, List.length_singleton]
        omega
      · rw [unsent_flushWriteQueue]
        simp only [unsent, List.length_append, List.length_singleton]
        omega
  · exact Nat.le_succ _

end Socket

namespace Session

/-- A write that calls back takes one string away. -/
theorem unsent_writeDone
    {session : Session}
    (writing : session.writes ≠ []) :
    session.writeDone.socket.unsent + 1 = session.socket.unsent := by
  unfold writeDone
  cases writes : session.writes with
  | nil =>
      exact absurd writes writing
  | cons buffer others =>
      have before :
          session.socket.unsent =
            others.length +
                session.connection.transport.writeQueue.length + 1 := by
        change session.writes.length +
          session.connection.transport.writeQueue.length = _
        rw [writes, List.length_cons]
        omega
      rw [before]
      refine congrArg Nat.succ ?_
      dsimp only
      rw [socket_setSocket]
      split
      · split
        · rfl
        · rw [Socket.unsent_doRead, Socket.unsent_resetIdleTimer]
          rfl
      · rw [Socket.unsent_flushWriteQueue]
        rfl

/-- A steady connection without a write has sent everything. -/
theorem Steady.settled
    {session : Session}
    (steady : session.Steady)
    (idle : session.writes = [])
    (isOpen : session.connection.transport.socketOpen = true) :
    session.sent = session.accepted.map Output.bytes ∧
      session.reads = 1 := by
  have flow := steady.flowControlled isOpen
  have stopped : session.connection.transport.writeInProgress = false := by
    have writes := flow.oneWrite
    rw [idle] at writes
    by_contra writing
    rw [if_pos (eq_true_of_ne_false writing)] at writes
    exact List.cons_ne_nil _ _ writes.symm
  have queue : session.connection.transport.writeQueue = [] :=
    (steady.sound.flow isOpen).queue stopped
  have order := flow.inOrder
  rw [queue, idle, List.append_nil, List.append_nil] at order
  refine ⟨order, ?_⟩
  have reading :=
    flow.neverStalls.resolve_right fun writing =>
      absurd (stopped.symm.trans writing) Bool.noConfusion
  exact flow.oneRead.trans (if_pos reading)

end Session

namespace EventLoop

/-- A sum changes with the connection that is replaced. -/
theorem sumOver_insert
    (measure : Session → Nat)
    {loop next : EventLoop}
    {id : Nat}
    {session after : Session}
    (found : loop.sessions.lookup id = some session)
    (sessions : next.sessions = loop.sessions.insert id after) :
    next.sumOver measure + measure session =
      loop.sumOver measure + measure after := by
  have member := AList.lookup_isSome.mp (Option.isSome_of_mem found)
  obtain ⟨other, before, behind, -, shape, erased⟩ :=
    List.exists_of_kerase member
  have same : session = other := by
    have there : ⟨id, other⟩ ∈ loop.sessions.entries := by
      rw [shape]
      exact List.mem_append_right _ (.head _)
    exact Option.some_injective _
      (found.symm.trans (AList.mem_lookup_iff.mpr there))
  rw [sumOver, sumOver, sessions, AList.entries_insert, erased,
    shape, same]
  simp only [List.map_cons, List.map_append, List.sum_cons,
    List.sum_append]
  omega

/-- The same, if the connection is perhaps destroyed. -/
theorem sumOver_release
    (measure : Session → Nat)
    {loop next : EventLoop}
    {id : Nat}
    {session after : Session}
    (found : loop.sessions.lookup id = some session)
    (sessions : next.sessions = loop.sessions.insert id after) :
    (next.release id).sumOver measure + measure session ≤
      loop.sumOver measure + measure after := by
  rw [← sumOver_insert measure found sessions]
  refine Nat.add_le_add_right ?_ _
  rcases next.release_cases id with ⟨same, -⟩ | ⟨one, -, -, gone⟩
  · rw [same]
  · rw [gone]
    have fewer :
        (next.sessions.erase id).entries.Sublist next.sessions.entries :=
      List.kerase_sublist id _
    exact (fewer.map _).sum_le_sum fun _ _ => Nat.zero_le _

/--
What a server owes.  A delivery counts twice, since it becomes a string to be
written.
-/
def work (loop : EventLoop) : Nat :=
  2 * loop.server.backend.posted.length +
    loop.sumOver fun session => session.socket.unsent

section Tasks

variable {loop : EventLoop}

/-- A write that calls back leaves less to do. -/
theorem work_writeDone
    (config : ServerConfig)
    (reserve : Reserve)
    {id : Nat}
    {session : Session}
    (found : loop.sessions.lookup id = some session)
    (writing : session.writes ≠ []) :
    (loop.step config reserve (.complete id .writeDone)).work < loop.work ∧
      (loop.step config reserve (.complete id .writeDone)).history =
        loop.history := by
  have less := Session.unsent_writeDone writing
  have replaced :
      ((loop.handle reserve id session .writeDone).release id).sumOver
            (fun session => session.socket.unsent) +
          session.socket.unsent ≤
        loop.sumOver (fun session => session.socket.unsent) +
          session.writeDone.socket.unsent :=
    sumOver_release _ found rfl
  simp only [step, found]
  constructor
  · rw [work, work, posted_release]
    change 2 * loop.server.backend.posted.length + _ < _
    omega
  · rw [history_release]
    exact List.append_nil _

/-- A delivery leaves less to do. -/
theorem work_runPosted
    (config : ServerConfig)
    (reserve : Reserve)
    (consistent : loop.Consistent)
    (waiting : loop.server.backend.posted ≠ []) :
    (loop.step config reserve .runPosted).work < loop.work ∧
      (loop.step config reserve .runPosted).history = loop.history := by
  obtain ⟨delivery, later, posted⟩ := List.exists_cons_of_ne_nil waiting
  have addressed :=
    consistent.addressed delivery (posted ▸ List.mem_cons_self)
  obtain ⟨session, found⟩ :=
    Option.isSome_iff_exists.mp (AList.lookup_isSome.mpr addressed)
  have more :=
    session.socket.unsent_doWrite session.connection.maxPendingWriteBytes
      (.message delivery.write.channel delivery.message)
  have replaced :
      ((loop.deliver later session delivery).release
              delivery.write.connection).sumOver
            (fun session => session.socket.unsent) +
          session.socket.unsent ≤
        loop.sumOver (fun session => session.socket.unsent) +
          (session.push delivery.write.channel
            delivery.message).socket.unsent :=
    sumOver_release _ found rfl
  rw [Session.push, Session.socket_setSocket] at replaced
  simp only [step, posted, found]
  constructor
  · rw [work, work, posted_release, posted, List.length_cons]
    change 2 * later.length + _ < _
    omega
  · rw [history_release]
    rfl

end Tasks

/-- Only these parts are compared with the history. -/
theorem Delivers.setBackend
    {loop : EventLoop}
    (delivers : loop.Delivers)
    {backend : Backend}
    (posted : backend.posted = loop.server.backend.posted) :
    (loop.setBackend backend).Delivers := by
  refine ⟨fun id session found isOpen => ?_, delivers.counts⟩
  change _ ++ addressedTo id backend.posted = _
  rw [posted]
  exact delivers.delivered id session found isOpen

theorem Delivers.addClient
    {loop : EventLoop}
    {config : ServerConfig}
    {id : Nat}
    (delivers : loop.Delivers)
    (consistent : loop.Consistent)
    (free : id ∉ loop.sessions)
    (room :
      ¬toInt64 config.maxClients ≤
        loop.server.backend.stats.connectedClients)
    (reserve : Reserve) :
    (loop.addClient config id).Delivers := by
  have admits :
      loop.step config reserve (.accept id) = loop.addClient config id := by
    simp only [EventLoop.step, accept, AList.lookup_eq_none.mpr free,
      Option.isSome_none, Bool.false_eq_true, if_false, if_neg room]
  rw [← admits]
  exact delivers.step consistent (.accept id)

end EventLoop

namespace Process

/-- A task that the event loop owes to a client. -/
def Owes (process : Process) : ProcessEvent → Prop
  | .runPosted => process.loop.server.backend.posted ≠ []
  | .complete id .writeDone =>
      ∃ session,
        process.loop.sessions.lookup id = some session ∧
          session.writes ≠ []
  | _ => False

/-- A process within its bounds that delivers what was published. -/
structure Serving (config : ServerConfig) (process : Process) : Prop where
  bounded : process.Bounded config
  delivers : process.loop.Delivers

section Runs

variable {reserve : Reserve} {process : Process} {config : ServerConfig}

theorem Serving.step
    (serving : process.Serving config)
    (fits : config.maxClients < 2 ^ 64)
    (event : ProcessEvent) :
    (process.step reserve event).Serving config := by
  refine ⟨serving.bounded.step fits event, ?_⟩
  have delivers := serving.delivers
  have orderly := serving.bounded.orderly
  have consistent := orderly.sound.consistent
  obtain ⟨-, change⟩ := orderly.step_loopChange reserve event
  generalize process.executes reserve event = dispatches at change
  generalize (process.step reserve event).loop = loop at change ⊢
  cases change with
  | kept =>
      exact delivers
  | swept | closed =>
      exact delivers.setBackend rfl
  | admitted id free room =>
      exact delivers.addClient consistent free
        (of_decide_eq_false room) reserve
  | ran event =>
      exact delivers.step consistent event

theorem serving_after
    (reserve : Reserve)
    (around : Surroundings)
    (cfg : Config)
    (events : List ProcessEvent) :
    ((launch reserve around cfg).after reserve events).Serving
      cfg.serverConfig := by
  refine Machine.invariant (Serving cfg.serverConfig)
    (fun _ event before => before.step cfg.maxClients.toNat_lt event) ?_
    events
  refine ⟨bounded_after reserve around cfg [], ⟨?_, ?_⟩⟩
  · exact fun _ _ found => absurd found.symm (Option.some_ne_none _)
  · intro before after id channel message reply split
    exact absurd split.symm (List.append_ne_nil_of_right_ne_nil _
      (List.cons_ne_nil _ _))

/-- A process that runs and has answered nothing more. -/
structure Draining
    (config : ServerConfig)
    (history : List Happening)
    (process : Process) :
    Prop where
  serving : process.Serving config
  running : process.ending = none
  history : process.loop.history = history

/-- A task that is owed leaves less to do, and nothing new is answered. -/
theorem Draining.pays
    {history : List Happening}
    (draining : process.Draining config history)
    (fits : config.maxClients < 2 ^ 64)
    {event : ProcessEvent}
    (owed : process.Owes event) :
    (process.step reserve event).Draining config history ∧
      (process.step reserve event).loop.work < process.loop.work := by
  obtain ⟨serving, running, rfl⟩ := draining
  have consistent := serving.bounded.orderly.sound.consistent
  have next : (process.step reserve event).Serving config :=
    serving.step fits event
  suffices pays :
      (process.step reserve event).ending = none ∧
        (process.step reserve event).loop.work < process.loop.work ∧
        (process.step reserve event).loop.history =
          process.loop.history from
    ⟨⟨next, pays.1, pays.2.2⟩, pays.2.1⟩
  cases event with
  | runPosted =>
      have runs :
          process.step reserve .runPosted =
            { process with
              loop :=
                process.loop.step process.config reserve .runPosted } := by
        simp [Process.step, enabled, running, perform]
      rw [runs]
      exact ⟨running,
        EventLoop.work_runPosted process.config reserve consistent owed⟩
  | complete id completion =>
      cases completion with
      | writeDone =>
          have runs :
              process.step reserve (.complete id .writeDone) =
                { process with
                  loop :=
                    process.loop.step process.config reserve
                      (.complete id .writeDone) } := by
            simp [Process.step, enabled, running, perform]
          obtain ⟨session, found, writing⟩ := owed
          rw [runs]
          exact ⟨running,
            EventLoop.work_writeDone process.config reserve found writing⟩
      | readDone | readFailed | writeFailed | waitExpired | waitAborted =>
          exact owed.elim
  | signal | sweep | acceptDone | pollDone =>
      exact owed.elim

/-- A process that owes nothing has sent everything. -/
theorem Serving.rested
    (serving : process.Serving config)
    (nothing : ∀ event, ¬process.Owes event)
    {id : Nat}
    {session : Session}
    (found : process.loop.sessions.lookup id = some session)
    (isOpen : session.connection.transport.socketOpen = true) :
    session.sent = session.accepted.map Output.bytes ∧
      messagesOf session.accepted =
        (Happening.sentTo id process.loop.history).map Prod.snd ∧
      session.reads = 1 := by
  have posted : process.loop.server.backend.posted = [] := by
    by_contra waiting
    exact nothing .runPosted waiting
  have idle : session.writes = [] := by
    by_contra writing
    exact nothing (.complete id .writeDone) ⟨session, found, writing⟩
  have delivered := serving.delivers.delivered id session found isOpen
  have steady := (serving.bounded.every id session found).steady
  obtain ⟨sent, reads⟩ := steady.settled idle isOpen
  rw [posted] at delivered
  exact ⟨sent, (List.append_nil _).symm.trans delivered, reads⟩

end Runs

/--
While the loop of a server runs, the tasks that it owes its clients run out if
nothing new arrives: in whatever order they are taken, they are at most as many
as the work there is, and more of them can be taken until none is left.
Whenever none is left, every open connection has been written all its output in
order, which includes every message published on its channels, and waits for its
client.
-/
theorem comes_to_rest
    (reserve : Reserve)
    (around : Surroundings)
    (cfg : Config)
    (events tasks : List ProcessEvent)
    (running :
      ((launch reserve around cfg).after reserve events).ending = none)
    (obliges :
      (machine reserve).Obliges Owes
        ((launch reserve around cfg).after reserve events) tasks) :
    let process := (launch reserve around cfg).after reserve events
    let reached := process.after reserve tasks
    tasks.length ≤ process.loop.work ∧
      (∃ more,
        (machine reserve).Obliges Owes process (tasks ++ more) ∧
          ∀ event, ¬(process.after reserve (tasks ++ more)).Owes event) ∧
      ((∀ event, ¬reached.Owes event) →
        reached.loop.history = process.loop.history ∧
          reached.loop.server.backend.posted = [] ∧
          ∀ id session,
            reached.loop.sessions.lookup id = some session →
            session.connection.transport.socketOpen = true →
            session.sent = session.accepted.map Output.bytes ∧
              messagesOf session.accepted =
                (Happening.sentTo id reached.loop.history).map Prod.snd ∧
              session.reads = 1) := by
  intro process reached
  have pays
      (one : Process)
      (event : ProcessEvent)
      (before : one.Draining cfg.serverConfig process.loop.history)
      (owed : one.Owes event) :
      (one.step reserve event).Draining cfg.serverConfig
          process.loop.history ∧
        (one.step reserve event).loop.work < one.loop.work :=
    before.pays cfg.maxClients.toNat_lt owed
  have draining :
      process.Draining cfg.serverConfig process.loop.history :=
    ⟨serving_after reserve around cfg events, running, rfl⟩
  have drained :
      reached.Draining cfg.serverConfig process.loop.history :=
    Machine.good_of_obliges Owes _
      (fun one event before owed => (pays one event before owed).1)
      draining obliges
  refine ⟨?_, ?_, fun nothing => ?_⟩
  · exact Machine.length_le_of_obliges Owes _ (fun one => one.loop.work) pays
      draining obliges
  · obtain ⟨more, later, -, nothing⟩ :=
      (machine reserve).exists_settled Owes _ (fun one => one.loop.work)
        pays drained
    refine ⟨more, obliges.append later, ?_⟩
    rw [after_append]
    exact nothing
  · refine ⟨drained.history, ?_, fun id session => ?_⟩
    · by_contra waiting
      exact nothing .runPosted waiting
    · exact drained.serving.rested nothing

/-- A message is posted to a subscriber, and two replies are being written. -/
theorem comes_to_rest_published :
    let around : Surroundings :=
      ⟨fun _ => .error [], fun _ => none, 0, fun _ => 0, fun _ => true⟩
    let read (id : Nat) (cmd : Command) : ProcessEvent :=
      .complete id (.readDone (fun _ => 5) (AofPersistence.wire [cmd]))
    let events : List ProcessEvent :=
      [.acceptDone (.socket 1 true), .acceptDone (.socket 2 true),
        read 1 ⟨ascii "SUBSCRIBE", [ascii "c"]⟩,
        read 2 ⟨ascii "PUBLISH", [ascii "c", ascii "text"]⟩]
    let process :=
      (launch (fun _ => none) around {}).after (fun _ => none) events
    process.loop.work = 4 ∧
      ∃ tasks,
        (machine fun _ => none).Obliges Owes process tasks ∧
          (process.after (fun _ => none) tasks).loop.server.backend.posted =
            [] := by
  intro around read events process
  -- From the state with no task run yet, some tasks lead to rest.
  obtain ⟨-, ⟨tasks, obliges, nothing⟩, -⟩ :=
    comes_to_rest (fun _ => none) around {} events [] rfl trivial
  obtain ⟨-, -, rested⟩ :=
    comes_to_rest (fun _ => none) around {} events tasks rfl obliges
  exact ⟨by decide +kernel, tasks, obliges, (rested nothing).2.1⟩

end Process

end Vortek
