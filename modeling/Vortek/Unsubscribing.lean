import Vortek.Delivery

namespace Vortek

open Multicast

/-!
# Messages after an unsubscription

A connection that has been told it left a channel should get no message of the
channel before it is told that it joined again.

`publish` posts its messages, and the task that hands a message over does not
look at the subscriptions any more.  What keeps the order is that no message is
posted when the connection leaves (`Turn.leavesClean`): then a channel that is
`silenced` is neither joined nor posted to (`Muted`), and nothing but a new
subscription can change that.
-/

/-- Whether a client thinks it has left the channel, after a notice. -/
def Notice.silences (channel : Bytes) (silent : Bool) : Notice → Bool
  | .subscribed other => if other = channel then false else silent
  | .unsubscribed other => if other = channel then true else silent

/-- Whether the last notice about the channel is that it was left. -/
def silenced (channel : Bytes) (outputs : List Output) : Bool :=
  (outputs.flatMap Output.notices).foldl (Notice.silences channel) false

/-- No message of a channel comes between leaving and joining it. -/
def RespectsNotices (outputs : List Output) : Prop :=
  ∀ position channel text,
    outputs[position]?.bind Output.message? = some (channel, text) →
    silenced channel (outputs.take position) = false

section Notices

variable {channel : Bytes} {outputs more : List Output}

theorem silenced_append
    (channel : Bytes)
    (outputs more : List Output) :
    silenced channel (outputs ++ more) =
      (more.flatMap Output.notices).foldl (Notice.silences channel)
        (silenced channel outputs) := by
  rw [silenced, List.flatMap_append, List.foldl_append, ← silenced]

theorem silenced_append_of_no_notice
    (quiet : more.flatMap Output.notices = []) :
    silenced channel (outputs ++ more) = silenced channel outputs := by
  rw [silenced_append, quiet]
  rfl

theorem foldl_silences_subscribed
    (channels : List Bytes)
    (silent : Bool) :
    (channels.map Notice.subscribed).foldl (Notice.silences channel)
        silent = true →
      channel ∉ channels ∧ silent = true := by
  induction channels generalizing silent with
  | nil =>
      exact fun here => ⟨List.not_mem_nil, here⟩
  | cons first later inductionHypothesis =>
      intro here
      obtain ⟨absent, before⟩ := inductionHypothesis _ here
      simp only [Notice.silences] at before
      split at before
      · cases before
      · rename_i differs
        exact ⟨List.not_mem_cons_of_ne_of_not_mem (Ne.symm differs) absent,
          before⟩

theorem foldl_silences_unsubscribed
    (channels : List Bytes)
    (silent : Bool) :
    (channels.map Notice.unsubscribed).foldl (Notice.silences channel)
        silent = true →
      channel ∈ channels ∨ silent = true := by
  induction channels generalizing silent with
  | nil =>
      exact Or.inr
  | cons first later inductionHypothesis =>
      intro here
      rcases inductionHypothesis _ here with member | before
      · exact Or.inl (List.mem_cons_of_mem _ member)
      · simp only [Notice.silences] at before
        split at before
        · rename_i same
          exact Or.inl (same ▸ List.mem_cons_self)
        · exact Or.inr before

theorem respectsNotices_append
    (respects : RespectsNotices outputs)
    (later :
      ∀ position channel text,
        more[position]?.bind Output.message? = some (channel, text) →
        silenced channel (outputs ++ more.take position) = false) :
    RespectsNotices (outputs ++ more) := by
  intro position channel text here
  rw [List.getElem?_append] at here
  rw [List.take_append]
  split at here
  · rename_i early
    rw [Nat.sub_eq_zero_of_le early.le, List.take_zero, List.append_nil]
    exact respects position channel text here
  · rename_i late
    rw [List.take_of_length_le (Nat.le_of_not_lt late)]
    exact later _ channel text here

/-- Outputs other than messages can be added. -/
theorem respectsNotices_append_of_no_message
    (respects : RespectsNotices outputs)
    (none : messagesOf more = []) :
    RespectsNotices (outputs ++ more) := by
  refine respectsNotices_append respects fun position channel text here => ?_
  obtain ⟨output, there, isMessage⟩ := Option.bind_eq_some_iff.mp here
  have silent :=
    List.filterMap_eq_nil_iff.mp none output (List.mem_of_getElem? there)
  rw [isMessage] at silent
  cases silent

/-- A message of a channel that is not silenced can be added. -/
theorem respectsNotices_concat
    (respects : RespectsNotices outputs)
    (heard : silenced channel outputs = false)
    (text : Bytes) :
    RespectsNotices (outputs ++ [.message channel text]) := by
  refine respectsNotices_append respects fun position other content here => ?_
  cases position with
  | zero =>
      cases here
      rw [List.take_zero, List.append_nil]
      exact heard
  | succ position =>
      cases here

end Notices

/-- An open connection has neither joined nor pending what is silenced. -/
def Muted
    (id : Nat)
    (joined : ByteSet)
    (posted : List Delivery)
    (socket : Socket) :
    Prop :=
  socket.transport.socketOpen = true →
    ∀ channel,
      silenced channel socket.accepted = true →
      channel ∉ joined.members ∧
        ∀ delivery ∈ posted, delivery.write ≠ ⟨id, channel⟩

/-- No message for the connection is posted that the notice rules out. -/
def Notice.isClean (id : Nat) (posted : List Delivery) : Notice → Bool
  | .subscribed _ => true
  | .unsubscribed channel =>
      posted.all fun delivery => delivery.write ≠ ⟨id, channel⟩

/--
The channels that a value leaves have no message posted to the connection,
unless the reply does not fit and the socket is closed.
-/
def Turn.leavesClean (turn : Turn) (value : RespValue) : Bool :=
  let calls := turn.serveCalls value
  let transport :=
    calls.foldl (SocketCall.act turn.connection.maxPendingWriteBytes)
      turn.connection.transport
  !transport.socketOpen ||
    ((calls.flatMap SocketCall.outputs).flatMap Output.notices).all
      (Notice.isClean turn.connection.id turn.server.backend.posted)

section Serving

variable {id : Nat} {joined : ByteSet} {posted : List Delivery}
variable {socket next : Socket}

/-- Outputs without a notice change nothing for the client. -/
theorem Muted.accepts
    {outputs : List Output}
    (muted : Muted id joined posted socket)
    (accepts : socket.Accepts outputs next)
    (quiet : outputs.flatMap Output.notices = []) :
    Muted id joined posted next := by
  intro isOpen channel silent
  obtain ⟨before, accepted⟩ := accepts.whole isOpen
  rw [accepted, silenced_append_of_no_notice quiet] at silent
  exact muted before channel silent

/-- Deliveries on channels that were left are all that matters. -/
theorem Muted.of_posted
    {more : List Delivery}
    (muted : Muted id joined posted socket)
    (reach :
      ∀ delivery ∈ more,
        delivery ∈ posted ∨
          delivery.write.connection ≠ id ∨
          delivery.write.channel ∈ joined.members) :
    Muted id joined more socket := by
  intro isOpen channel silent
  obtain ⟨apart, none⟩ := muted isOpen channel silent
  refine ⟨apart, fun delivery member here => ?_⟩
  rcases reach delivery member with earlier | foreign | listed
  · exact none delivery earlier here
  · exact foreign (by rw [here])
  · rw [here] at listed
    exact apart listed

/-- A client is told what it has joined or left. -/
theorem Muted.resubscribe
    {outputs : List Output}
    {rejoined : ByteSet}
    {before after : Finset (Bytes × Nat)}
    (muted : Muted id joined posted socket)
    (accepts : socket.Accepts outputs next)
    (told : Told id before after (outputs.flatMap Output.notices))
    (joins : ∀ channel, channel ∈ joined.members ↔ (channel, id) ∈ before)
    (rejoins :
      ∀ channel, channel ∈ rejoined.members ↔ (channel, id) ∈ after)
    (clean :
      next.transport.socketOpen = true →
      ∀ notice ∈ outputs.flatMap Output.notices,
        notice.isClean id posted = true) :
    Muted id rejoined posted next := by
  intro isOpen channel silent
  obtain ⟨wasOpen, accepted⟩ := accepts.whole isOpen
  rw [accepted, silenced_append] at silent
  rw [rejoins]
  cases told with
  | joined channels names members =>
      rw [names] at silent
      obtain ⟨absent, earlier⟩ :=
        foldl_silences_subscribed channels _ silent
      obtain ⟨apart, none⟩ := muted wasOpen channel earlier
      rw [joins] at apart
      rw [members]
      exact ⟨not_or.mpr ⟨absent, apart⟩, none⟩
  | left channels names members =>
      rw [names] at silent
      rw [members]
      rcases foldl_silences_unsubscribed channels _ silent with
        listed | earlier
      · refine ⟨fun stays => stays.1 listed, ?_⟩
        have said :
            Notice.unsubscribed channel ∈
              outputs.flatMap Output.notices := by
          rw [names]
          exact List.mem_map_of_mem listed
        simpa only [Notice.isClean, List.all_eq_true,
          decide_eq_true_eq] using clean isOpen _ said
      · obtain ⟨apart, none⟩ := muted wasOpen channel earlier
        rw [joins] at apart
        exact ⟨fun stays => apart stays.2, none⟩

/-- A message is posted to the members of its channel only. -/
theorem Muted.publish
    {channel message : Bytes}
    {members : List Nat}
    (muted : Muted id joined posted socket)
    (joins : id ∈ members → channel ∈ joined.members) :
    Muted id joined
      (posted ++ members.map fun one => ⟨⟨one, channel⟩, message⟩)
      socket := by
  refine muted.of_posted fun delivery member => ?_
  rcases List.mem_append.mp member with earlier | now
  · exact Or.inl earlier
  · obtain ⟨one, inside, rfl⟩ := List.mem_map.mp now
    by_cases mine : one = id
    · exact Or.inr (Or.inr (joins (mine ▸ inside)))
    · exact Or.inr (Or.inl mine)

theorem Muted.serve
    {turn : Turn}
    {relation : Finset (Bytes × Nat)}
    {value : RespValue}
    (muted :
      Muted turn.connection.id turn.connection.subscribedChannels
        turn.server.backend.posted socket)
    (agrees : turn.Agrees relation)
    (same : socket.transport = turn.connection.transport)
    (clean : turn.leavesClean value = true)
    (reserve : Reserve)
    (clock : Nat → TimePoint) :
    let served := (turn.serve reserve clock value).state
    Muted turn.connection.id served.connection.subscribedChannels
      served.server.backend.posted
      ((turn.serveCalls value).foldl
        (Socket.perform turn.connection.maxPendingWriteBytes) socket) := by
  have accepts :=
    socket.accepts_performAll turn.connection.maxPendingWriteBytes
      (turn.serveCalls value)
  have step := Turn.serve_pubSubStep agrees reserve clock value
  obtain ⟨broker, -, agree⟩ := agrees
  dsimp only
  cases step with
  | resubscribed more notices after answered serves changes posts calls =>
      have told :
          ((turn.serveCalls value).flatMap
            SocketCall.outputs).flatMap Output.notices = notices := by
        rcases calls with ⟨none, nothing⟩ | ⟨output, one, names⟩
        · rw [none, nothing]
          rfl
        · rw [one, ← names]
          exact List.append_nil _
      rw [posts]
      refine muted.resubscribe accepts (told ▸ changes.told) agree.joined
        changes.agree.joined fun isOpen => ?_
      rw [Session.perform_transport, same] at isOpen
      simp only [Turn.leavesClean, isOpen, Bool.not_true, Bool.false_or,
        List.all_eq_true] at clean
      exact clean
  | published channel message members answered serves joins distinct
      listed posts calls =>
      rw [posts, joins, calls]
      exact muted.publish fun inside =>
        (agree.joined channel).mpr ((listed _).mp inside)

/-- All values of a read leave their channels clean. -/
def Connection.leavesClean
    (reserve : Reserve)
    (clock : Nat → TimePoint)
    (connection : Connection)
    (server : Server)
    (chunk : Bytes) :
    Bool :=
  connection.exceedsRequest chunk ||
    (connection.served reserve clock server chunk).all fun visit =>
      visit.1.leavesClean visit.2

variable {history : List Happening} {connection : Connection}
variable {server : Server}

/-- A read that has served some values so far. -/
structure Turn.KeepsMuted
    (history : List Happening)
    (connection : Connection)
    (server : Server)
    (socket : Socket)
    (turn : Turn)
    (seen : List (Turn × RespValue)) :
    Prop where
  tracks : turn.Tracks history server connection.id
  calls :
    (connection.begin server).Calls
      (seen.flatMap fun visit => visit.1.serveCalls visit.2) turn
  muted :
    seen.all (fun visit => visit.1.leavesClean visit.2) = true →
    Muted connection.id turn.connection.subscribedChannels
      turn.server.backend.posted
      ((seen.flatMap fun visit => visit.1.serveCalls visit.2).foldl
        (Socket.perform connection.maxPendingWriteBytes) socket)

theorem Turn.KeepsMuted.serve
    {turn : Turn}
    {seen : List (Turn × RespValue)}
    (keeps : turn.KeepsMuted history connection server socket seen)
    (same : socket.transport = connection.transport)
    (reserve : Reserve)
    (clock : Nat → TimePoint)
    (value : RespValue) :
    (turn.serve reserve clock value).state.KeepsMuted history connection
      server socket (seen ++ [(turn, value)]) := by
  obtain ⟨tracks, calls, muted⟩ := keeps
  have next := tracks.serve reserve clock value
  have limit :
      turn.connection.maxPendingWriteBytes =
        connection.maxPendingWriteBytes :=
    calls.maxPendingWriteBytes
  refine ⟨next, ?_, fun clean => ?_⟩
  · rw [List.flatMap_append, List.flatMap_singleton]
    exact calls.trans (turn.serve_calls value)
  · rw [List.all_append, Bool.and_eq_true] at clean
    have before := muted clean.1
    rw [← tracks.own] at before
    have now : turn.leavesClean value = true :=
      List.all_eq_true.mp clean.2 (turn, value) List.mem_cons_self
    have after := before.serve tracks.agrees
      (by rw [Session.perform_transport, same]; exact calls.transport.symm)
      now reserve clock
    rw [List.flatMap_append, List.flatMap_singleton, List.foldl_append,
      ← tracks.own]
    rw [limit] at after
    exact after

/-- A read hands over no notice after the values it serves. -/
theorem Turn.notices_finishCall
    (turn : Turn) :
    ([turn.finishCall].flatMap SocketCall.outputs).flatMap
      Output.notices = [] := by
  unfold finishCall
  split <;> rfl

/-- A read that leaves its channels clean. -/
theorem Muted.handleData
    (muted :
      Muted connection.id connection.subscribedChannels
        server.backend.posted socket)
    (agrees :
      (connection.begin server).Agrees (Happening.subscriptions history))
    (same : socket.transport = connection.transport)
    {reserve : Reserve}
    {clock : Nat → TimePoint}
    {chunk : Bytes}
    (clean : connection.leavesClean reserve clock server chunk = true) :
    let turn := connection.handleData reserve clock server chunk
    Muted connection.id turn.connection.subscribedChannels
      turn.server.backend.posted
      ((connection.handleCalls reserve clock server chunk).foldl
        (Socket.perform connection.maxPendingWriteBytes) socket) := by
  simp only [connection.handleData_eq_dataTurn, Connection.handleCalls]
  cases exceeds : connection.exceedsRequest chunk with
  | true =>
      exact muted.accepts (socket.accepts_performAll _ _) rfl
  | false =>
      rw [Connection.leavesClean, exceeds, Bool.false_or] at clean
      have looped :
          (connection.dataTurn reserve clock server chunk).KeepsMuted
            history connection server socket
            (connection.served reserve clock server chunk) := by
        refine Connection.dataTurn_invariant reserve clock
          (Turn.KeepsMuted history connection server socket)
          (fun _ _ value keeps => keeps.serve same reserve clock value) ?_
          ⟨connection.tracks_begin agrees, Turn.calls_refl rfl,
            fun _ => muted⟩ chunk
        rintro turn seen responses raised parser ⟨tracks, calls, quiet⟩
        obtain ⟨id, pass, request, pending, closing, moved⟩ := calls
        exact ⟨tracks.congr rfl rfl rfl rfl,
          ⟨id, pass, request, pending, closing, moved⟩, quiet⟩
      obtain ⟨transport, finished⟩ :=
        (connection.dataTurn reserve clock server
          chunk).finish_connection_eq
      rw [if_neg Bool.false_ne_true, if_neg Bool.false_ne_true,
        List.foldl_append, finished, Turn.finish_server]
      exact (looped.muted clean).accepts (Socket.accepts_performAll _ _ _)
        (Turn.notices_finishCall _)

end Serving

namespace Session

/-- A completion leaves the channels of the connection clean. -/
def leavesClean
    (reserve : Reserve)
    (session : Session)
    (server : Server) :
    Completion → Bool
  | .readDone clock chunk =>
      session.reads = 0 ||
        session.beginData.connection.leavesClean reserve clock server chunk
  | .readFailed | .writeDone | .writeFailed | .waitExpired
  | .waitAborted => true

/-- Neither joined nor posted to where the client thinks it has left. -/
def IsMuted (session : Session) (posted : List Delivery) : Prop :=
  Muted session.connection.id session.connection.subscribedChannels posted
    session.socket

section Handlers

variable {reserve : Reserve} {session : Session} {server : Server}
variable {completion : Completion} {history : List Happening}

/-- A completion that hands nothing over. -/
theorem IsMuted.quietly
    {next : Session}
    {posted : List Delivery}
    (muted : session.IsMuted posted)
    (accepts : session.socket.Accepts [] next.socket)
    (same :
      ∃ transport,
        next.connection =
          { session.connection with transport := transport }) :
    next.IsMuted posted := by
  obtain ⟨transport, moved⟩ := same
  unfold IsMuted
  rw [moved]
  exact Muted.accepts muted accepts rfl

theorem IsMuted.handle
    (muted : session.IsMuted server.backend.posted)
    (agrees :
      (session.connection.begin server).Agrees
        (Happening.subscriptions history))
    (clean : session.leavesClean reserve server completion = true) :
    (session.handle reserve (completion.input server)).IsMuted
      (session.serverAfter reserve server completion).backend.posted := by
  have accepts := session.handle_accepts reserve (completion.input server)
  cases completion with
  | readDone clock chunk =>
      by_cases idle : session.reads = 0
      · simp only [Completion.input, handle, serverAfter, if_pos idle]
        exact muted
      · simp only [leavesClean, idle, decide_false, Bool.false_or] at clean
        have begun :
            Muted session.beginData.connection.id
              session.beginData.connection.subscribedChannels
              server.backend.posted session.beginData.socket :=
          Muted.accepts muted
            (session.accepts_endRead.quietly
              (Socket.accepts_resetIdleTimer _ _)) rfl
        have own :
            (session.dataTurn reserve clock server chunk).connection.id =
              session.beginData.connection.id :=
          (session.beginData.connection.handleData_tracks agrees reserve
            clock chunk).own
        simp only [Completion.input, handle, serverAfter, if_neg idle,
          IsMuted, readDone_connection, own]
        exact begun.handleData agrees rfl clean
  | readFailed | writeDone | writeFailed | waitExpired | waitAborted =>
      exact muted.quietly accepts
        (handle_connection_of_not_read
          (fun _ _ _ => SessionInput.noConfusion) reserve session)

end Handlers

end Session

namespace EventLoop

/-- The task leaves the channels of its connection clean. -/
def leavesClean (reserve : Reserve) (loop : EventLoop) : LoopEvent → Bool
  | .complete id completion =>
      match loop.sessions.lookup id with
      | none => true
      | some session =>
          session.leavesClean reserve loop.server completion
  | .accept _ | .runPosted => true

/-- No connection gets messages of a channel that it was told it left. -/
structure HeedsNotices (loop : EventLoop) : Prop where
  present :
    ∀ id session,
      loop.sessions.lookup id = some session →
      RespectsNotices session.accepted
  past : ∀ session ∈ loop.released, RespectsNotices session.accepted

/-- Every connection is muted where its client thinks it has left. -/
def AllMuted (loop : EventLoop) : Prop :=
  ∀ id session,
    loop.sessions.lookup id = some session →
    session.IsMuted loop.server.backend.posted

section Steps

variable {reserve : Reserve} {loop : EventLoop} {id : Nat}
variable {session : Session}

theorem AllMuted.addClient
    (muted : loop.AllMuted)
    (config : ServerConfig) :
    (loop.addClient config id).AllMuted := by
  intro other one found
  rcases lookup_insert_cases found with ⟨-, rfl⟩ | ⟨-, earlier⟩
  · intro _ channel silent
    change silenced channel (Session.start _ _).accepted = true at silent
    rw [Session.accepted_start] at silent
    cases silent
  · exact muted other one earlier

theorem AllMuted.handle
    {completion : Completion}
    (muted : loop.AllMuted)
    (consistent : loop.Consistent)
    (found : loop.sessions.lookup id = some session)
    (clean : session.leavesClean reserve loop.server completion = true) :
    (loop.handle reserve id session completion).AllMuted := by
  obtain ⟨turn, tracks, serves, -, -, -⟩ :=
    handle_tracks consistent found reserve completion
  obtain ⟨sent, posts, reach, -⟩ := tracks.posted
  intro other one inserted
  rcases lookup_insert_cases inserted with ⟨-, rfl⟩ | ⟨differs, earlier⟩
  · exact (muted id session found).handle (consistent.agrees found) clean
  · refine (muted other one earlier).of_posted fun delivery member => ?_
    rw [serves, posts] at member
    rcases List.mem_append.mp member with before | now
    · exact Or.inl before
    · right
      rw [consistent.own other one earlier, or_iff_not_imp_left, not_not]
      intro here
      rcases reach delivery now with mine | listed
      · exact absurd (here.symm.trans mine) differs
      · rw [here] at listed
        exact (consistent.joined other one earlier _).mpr listed

theorem AllMuted.deliver
    {delivery : Delivery}
    {later : List Delivery}
    (muted : loop.AllMuted)
    (posted : loop.server.backend.posted = delivery :: later)
    (found :
      loop.sessions.lookup delivery.write.connection = some session) :
    (loop.deliver later session delivery).AllMuted := by
  have fewer (task : Delivery) (member : task ∈ later) :
      task ∈ loop.server.backend.posted := by
    rw [posted]
    exact List.mem_cons_of_mem _ member
  intro other one inserted
  rcases lookup_insert_cases inserted with ⟨-, rfl⟩ | ⟨-, earlier⟩
  · exact ((muted _ session found).accepts
      (session.socket.accepts_doWrite _ _) rfl).of_posted
        fun task member => Or.inl (fewer task member)
  · exact (muted other one earlier).of_posted
      fun task member => Or.inl (fewer task member)

theorem AllMuted.release
    (muted : loop.AllMuted)
    (id : Nat) :
    (loop.release id).AllMuted := by
  intro other one found
  rw [posted_release]
  exact muted other one (lookup_of_lookup_release found)

theorem HeedsNotices.insert_release
    {next : EventLoop}
    {after : Session}
    (heeds : loop.HeedsNotices)
    (sessions : next.sessions = loop.sessions.insert id after)
    (released : next.released = loop.released)
    (mine : RespectsNotices after.accepted) :
    (next.release id).HeedsNotices := by
  have present :
      ∀ other one,
        next.sessions.lookup other = some one →
        RespectsNotices one.accepted := by
    intro other one found
    rw [sessions] at found
    rcases lookup_insert_cases found with ⟨-, rfl⟩ | ⟨-, earlier⟩
    · exact mine
    · exact heeds.present other one earlier
  refine ⟨fun other one found =>
    present other one (lookup_of_lookup_release found), ?_⟩
  rcases next.release_cases id with ⟨same, -⟩ | ⟨gone, there, -, destroyed⟩
  · rw [same, released]
    exact heeds.past
  · rw [destroyed]
    intro one member
    rcases List.mem_append.mp member with earlier | last
    · rw [released] at earlier
      exact heeds.past one earlier
    · rw [List.mem_singleton.mp last]
      exact present id gone there

/-- A completion hands over no message. -/
theorem respectsNotices_handle
    (respects : RespectsNotices session.accepted)
    (server : Server)
    (completion : Completion) :
    RespectsNotices
      (session.handle reserve (completion.input server)).accepted := by
  obtain ⟨taken, ⟨rest, whole⟩, accepted⟩ :=
    (session.handle_accepts reserve (completion.input server)).part
  have none :
      messagesOf (session.outputs reserve (completion.input server)) = [] :=
    session.messagesOf_outputs server completion
  rw [← whole, messagesOf_append, List.append_eq_nil_iff] at none
  change RespectsNotices (session.handle reserve _).socket.accepted
  rw [accepted]
  exact respectsNotices_append_of_no_message respects none.1

/-- A message that is posted to a muted connection is one it may get. -/
theorem respectsNotices_push
    {delivery : Delivery}
    {posted : List Delivery}
    (respects : RespectsNotices session.accepted)
    (muted : session.IsMuted posted)
    (member : delivery ∈ posted)
    (own : session.connection.id = delivery.write.connection) :
    RespectsNotices
      (session.push delivery.write.channel delivery.message).accepted := by
  have accepts :=
    session.socket.accepts_doWrite session.connection.maxPendingWriteBytes
      (.message delivery.write.channel delivery.message)
  change RespectsNotices (session.socket.doWrite _ _).accepted
  cases isOpen : session.socket.transport.socketOpen with
  | false =>
      rw [(accepts.closed isOpen).2]
      exact respects
  | true =>
      have heard :
          silenced delivery.write.channel session.socket.accepted =
            false := by
        by_contra silent
        refine (muted isOpen _ (Bool.not_eq_false _ ▸ silent)).2 delivery
          member ?_
        rw [own]
      obtain ⟨taken, start, accepted⟩ := accepts.part
      rw [accepted]
      rcases List.prefix_cons_iff.mp start with rfl | ⟨more, rfl, rest⟩
      · rw [List.append_nil]
        exact respects
      · rw [List.prefix_nil.mp rest]
        exact respectsNotices_concat respects heard _

end Steps

/-- A task that leaves its channels clean keeps everyone in order. -/
theorem HeedsNotices.step
    {config : ServerConfig}
    {reserve : Reserve}
    {loop : EventLoop}
    {event : LoopEvent}
    (heeds : loop.HeedsNotices)
    (muted : loop.AllMuted)
    (consistent : loop.Consistent)
    (clean : loop.leavesClean reserve event = true) :
    (loop.step config reserve event).HeedsNotices ∧
      (loop.step config reserve event).AllMuted := by
  have progress := loop.step_progress config reserve event
  generalize loop.step config reserve event = next at progress ⊢
  cases progress with
  | idle =>
      exact ⟨heeds, muted⟩
  | admitted id fresh =>
      refine ⟨⟨fun other one found => ?_, heeds.past⟩,
        muted.addClient config⟩
      rcases lookup_insert_cases found with ⟨-, rfl⟩ | ⟨-, earlier⟩
      · rw [Session.accepted_start]
        intro _ _ _ here
        cases here
      · exact heeds.present other one earlier
  | completed id session completion found =>
      simp only [leavesClean, found] at clean
      exact ⟨heeds.insert_release rfl rfl
          (respectsNotices_handle (heeds.present id session found) _ _),
        (muted.handle consistent found clean).release id⟩
  | delivered delivery later session posted found =>
      have member : delivery ∈ loop.server.backend.posted := by
        rw [posted]
        exact List.mem_cons_self
      exact ⟨heeds.insert_release rfl rfl
          (respectsNotices_push (heeds.present _ session found)
            (muted _ session found) member
            (consistent.own _ session found)),
        (muted.deliver posted found).release _⟩

/--
As long as no channel is left while a message of it is posted to the
connection, no connection gets a message after it was told it left.
-/
theorem no_message_after_unsubscribe
    (config : ServerConfig)
    (reserve : Reserve)
    (server : Server)
    (fresh : Fresh server)
    (events : List LoopEvent)
    (clean :
      Meets config reserve
        (fun loop event => loop.leavesClean reserve event = true)
        (start server) events) :
    ((start server).run config reserve events).HeedsNotices := by
  have initially : (start server).HeedsNotices ∧ (start server).AllMuted :=
    ⟨⟨fun _ _ found => absurd found.symm (Option.some_ne_none _),
        fun _ member => absurd member List.not_mem_nil⟩,
      fun _ _ found => absurd found.symm (Option.some_ne_none _)⟩
  exact (run_invariant
    (fun loop => loop.HeedsNotices ∧ loop.AllMuted)
    (fun _ _ sound clean both =>
      both.1.step both.2 sound.consistent clean)
    (sound_start fresh) initially clean).2.1

/-- A message that was delivered before the client unsubscribes. -/
theorem no_message_after_unsubscribe_delivered :
    let server : Server :=
      ⟨{ Backend.initial with broker := some PubSubBroker.empty }, none⟩
    let config : ServerConfig := ⟨[], 1048576, 0, 10000, 1048576⟩
    let read (commands : List Command) : LoopEvent :=
      .complete 7 (.readDone (fun _ => 0) (AofPersistence.wire commands))
    let events : List LoopEvent :=
      [.accept 7,
        read [⟨ascii "SUBSCRIBE", [ascii "c"]⟩,
          ⟨ascii "PUBLISH", [ascii "c", ascii "m"]⟩],
        .runPosted, .complete 7 .writeDone, .complete 7 .writeDone,
        .complete 7 .writeDone,
        read [⟨ascii "UNSUBSCRIBE", [ascii "c"]⟩]]
    let loop := (start server).run config (fun _ => none) events
    (loop.sessions.lookup 7).map
          (fun session =>
            (messagesOf session.accepted,
              silenced (ascii "c") session.accepted)) =
        some ([(ascii "c", ascii "m")], true) ∧
      loop.HeedsNotices := by
  intro server config read events
  have fresh : Fresh server := ⟨rfl, rfl, rfl⟩
  have clean :
      Meets config (fun _ => none)
        (fun loop event => loop.leavesClean (fun _ => none) event = true)
        (start server) events := by
    decide +kernel
  exact ⟨by decide +kernel,
    no_message_after_unsubscribe config (fun _ => none) server fresh
      events clean⟩

/--
A client that subscribes, publishes and unsubscribes in one pipeline gets its
message after the reply of UNSUBSCRIBE.
-/
theorem message_after_unsubscribe :
    let server : Server :=
      ⟨{ Backend.initial with broker := some PubSubBroker.empty }, none⟩
    let config : ServerConfig := ⟨[], 1048576, 0, 10000, 1048576⟩
    let commands : List Command :=
      [⟨ascii "SUBSCRIBE", [ascii "c"]⟩,
        ⟨ascii "PUBLISH", [ascii "c", ascii "m"]⟩,
        ⟨ascii "UNSUBSCRIBE", [ascii "c"]⟩]
    let events : List LoopEvent :=
      [.accept 7,
        .complete 7 (.readDone (fun _ => 0) (AofPersistence.wire commands)),
        .runPosted]
    let loop := (start server).run config (fun _ => none) events
    Fresh server ∧ ¬loop.HeedsNotices := by
  intro server config commands events loop
  have fresh : Fresh server := ⟨rfl, rfl, rfl⟩
  refine ⟨fresh, fun heeds => ?_⟩
  have late :
      (loop.sessions.lookup 7).any (fun session =>
        session.accepted[3]?.bind Output.message? =
            some (ascii "c", ascii "m") &&
          silenced (ascii "c") (session.accepted.take 3)) = true := by
    decide +kernel
  cases found : loop.sessions.lookup 7 with
  | none =>
      rw [found] at late
      cases late
  | some session =>
      rw [found, Option.any_some, Bool.and_eq_true, decide_eq_true_eq]
        at late
      have silent := heeds.present 7 session found 3 _ _ late.1
      rw [late.2] at silent
      cases silent

end EventLoop

end Vortek
