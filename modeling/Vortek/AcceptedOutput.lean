import Vortek.Session

namespace Vortek

/-!
# What a session accepts

`do_write` takes a string while the socket is open and its limit allows, and
closes the socket otherwise.  So what a handler hands over is accepted up to
some point, and all of it if the socket is still open afterwards.
-/

/-- The strings that a call hands to `do_write`. -/
def SocketCall.outputs : SocketCall → List Output
  | .doRead => []
  | .doWrite output => [output]

/-- The socket takes these outputs, or the first of them and is closed. -/
structure Socket.Accepts
    (socket : Socket)
    (outputs : List Output)
    (next : Socket) :
    Prop where
  whole :
    next.transport.socketOpen = true →
    socket.transport.socketOpen = true ∧
      next.accepted = socket.accepted ++ outputs
  closed :
    socket.transport.socketOpen = false →
    next.transport.socketOpen = false ∧ next.accepted = socket.accepted
  part :
    ∃ taken,
      taken <+: outputs ∧ next.accepted = socket.accepted ++ taken

namespace Socket

variable {socket next last : Socket}

/-- Nothing is handed over, and a closed socket is not opened. -/
theorem accepts_nil
    (same : next.accepted = socket.accepted)
    (opens :
      next.transport.socketOpen = true →
      socket.transport.socketOpen = true) :
    socket.Accepts [] next where
  whole isOpen := ⟨opens isOpen, same.trans (List.append_nil _).symm⟩
  closed isClosed := by
    refine ⟨?_, same⟩
    by_contra isOpen
    rw [opens (Bool.not_eq_false _ ▸ isOpen)] at isClosed
    cases isClosed
  part := ⟨[], List.prefix_rfl, same.trans (List.append_nil _).symm⟩

/-- Outputs are accepted one batch behind the other. -/
theorem Accepts.trans
    {outputs more : List Output}
    (first : socket.Accepts outputs next)
    (second : next.Accepts more last) :
    socket.Accepts (outputs ++ more) last := by
  refine ⟨fun isOpen => ?_, fun isClosed => ?_, ?_⟩
  · obtain ⟨between, laterAccepted⟩ := second.whole isOpen
    obtain ⟨before, accepted⟩ := first.whole between
    exact ⟨before, by rw [laterAccepted, accepted, List.append_assoc]⟩
  · obtain ⟨between, accepted⟩ := first.closed isClosed
    obtain ⟨after, laterAccepted⟩ := second.closed between
    exact ⟨after, laterAccepted.trans accepted⟩
  · cases between : next.transport.socketOpen with
    | true =>
        obtain ⟨taken, start, accepted⟩ := second.part
        refine ⟨outputs ++ taken, (List.prefix_append_right_inj _).mpr start,
          ?_⟩
        rw [accepted, (first.whole between).2, List.append_assoc]
    | false =>
        obtain ⟨taken, start, accepted⟩ := first.part
        refine ⟨taken, start.trans (List.prefix_append _ _), ?_⟩
        rw [(second.closed between).2, accepted]

theorem Accepts.quietly
    {outputs : List Output}
    (accepts : socket.Accepts outputs next)
    (quiet : next.Accepts [] last) :
    socket.Accepts outputs last := by
  have later := accepts.trans quiet
  rwa [List.append_nil] at later

/-- Nothing is accepted where nothing is handed over. -/
theorem Accepts.accepted_eq
    (quiet : socket.Accepts [] next) :
    next.accepted = socket.accepted := by
  obtain ⟨taken, start, accepted⟩ := quiet.part
  rw [accepted, List.prefix_nil.mp start, List.append_nil]

theorem accepts_closeSocket
    (socket : Socket) :
    socket.Accepts [] socket.closeSocket :=
  accepts_nil rfl fun isOpen => Bool.noConfusion isOpen

theorem accepts_doRead
    (socket : Socket) :
    socket.Accepts [] socket.doRead := by
  unfold doRead
  split
  · exact accepts_nil rfl id
  · exact accepts_nil rfl id

/-- Starting a write hands nothing over. -/
theorem accepts_flushWriteQueue
    (socket : Socket) :
    socket.Accepts [] socket.flushWriteQueue := by
  unfold flushWriteQueue
  split
  · exact accepts_nil rfl id
  · split
    · exact accepts_nil rfl id
    · exact accepts_nil rfl id

theorem accepts_resetIdleTimer
    (idleTimeout : Nat)
    (socket : Socket) :
    socket.Accepts [] (socket.resetIdleTimer idleTimeout) := by
  unfold resetIdleTimer
  split
  · exact accepts_nil rfl id
  · exact accepts_nil rfl id

/-- One output is accepted by an open socket. -/
theorem accepts_one
    {output : Output}
    (isOpen : socket.transport.socketOpen = true)
    (accepted : next.accepted = socket.accepted ++ [output]) :
    socket.Accepts [output] next where
  whole _ := ⟨isOpen, accepted⟩
  closed isClosed := by
    rw [isOpen] at isClosed
    cases isClosed
  part := ⟨[output], List.prefix_rfl, accepted⟩

/-- `do_write` accepts its output, or closes the socket. -/
theorem accepts_doWrite
    (limit : Nat)
    (socket : Socket)
    (output : Output) :
    socket.Accepts [output] (socket.doWrite limit output) := by
  unfold doWrite
  by_cases isOpen : socket.transport.socketOpen = true
  · rw [if_pos isOpen]
    split
    · refine ⟨fun after => Bool.noConfusion after, fun isClosed => ?_,
        [], List.nil_prefix, (List.append_nil _).symm⟩
      rw [isOpen] at isClosed
      cases isClosed
    · dsimp only
      split
      · exact accepts_one isOpen rfl
      · refine Accepts.quietly ?_ (accepts_flushWriteQueue _)
        exact accepts_one isOpen rfl
  · rw [if_neg isOpen]
    exact ⟨fun after => absurd after isOpen, fun before => ⟨before, rfl⟩,
      [], List.nil_prefix, (List.append_nil _).symm⟩

/-- A call hands over its own outputs. -/
theorem accepts_perform
    (limit : Nat)
    (socket : Socket)
    (call : SocketCall) :
    socket.Accepts call.outputs (socket.perform limit call) := by
  cases call with
  | doRead =>
      exact socket.accepts_doRead
  | doWrite output =>
      exact socket.accepts_doWrite limit output

/-- A list of calls hands over their outputs in order. -/
theorem accepts_performAll
    (limit : Nat)
    (socket : Socket)
    (calls : List SocketCall) :
    socket.Accepts (calls.flatMap SocketCall.outputs)
      (calls.foldl (perform limit) socket) := by
  induction calls generalizing socket with
  | nil =>
      exact accepts_nil rfl id
  | cons call later inductionHypothesis =>
      exact (socket.accepts_perform limit call).trans
        (inductionHypothesis (socket.perform limit call))

end Socket

namespace Session

/-- What a handler hands to `do_write`. -/
def outputs (reserve : Reserve) (session : Session) :
    SessionInput → List Output
  | .readDone server clock chunk =>
      if session.reads = 0 then
        []
      else
        (session.beginData.connection.handleCalls reserve clock server
          chunk).flatMap SocketCall.outputs
  | .push channel text => [.message channel text]
  | _ => []

/-- A new session has been handed nothing. -/
theorem accepted_start
    (connection : Connection)
    (idleTimeout : Nat) :
    (start connection idleTimeout).accepted = [] :=
  ((Socket.accepts_resetIdleTimer idleTimeout _).quietly
    (Socket.accepts_doRead _)).accepted_eq

theorem accepts_endRead
    (session : Session) :
    session.socket.Accepts [] session.endRead :=
  Socket.accepts_nil rfl id

/-- A handler has its outputs accepted as far as the socket stays open. -/
theorem handle_accepts
    (reserve : Reserve)
    (session : Session)
    (input : SessionInput) :
    session.socket.Accepts (session.outputs reserve input)
      (session.handle reserve input).socket := by
  cases input with
  | readDone server clock chunk =>
      simp only [outputs, handle]
      split
      · exact Socket.accepts_nil rfl id
      · exact (session.accepts_endRead.trans
          (Socket.accepts_resetIdleTimer session.idleTimeout
            session.endRead)).trans
          (Socket.accepts_performAll _ session.beginData.socket _)
  | readFailed =>
      simp only [outputs, handle]
      split
      · exact Socket.accepts_nil rfl id
      · exact session.accepts_endRead.trans
          (Socket.accepts_closeSocket _)
  | writeDone =>
      simp only [outputs, handle, writeDone]
      split
      · exact Socket.accepts_nil rfl id
      · rw [socket_setSocket]
        split
        · split
          · exact Socket.accepts_nil rfl fun isOpen =>
              Bool.noConfusion isOpen
          · refine Socket.Accepts.quietly ?_ (Socket.accepts_doRead _)
            refine Socket.Accepts.quietly ?_
              (Socket.accepts_resetIdleTimer _ _)
            exact Socket.accepts_nil rfl id
        · refine Socket.Accepts.quietly ?_
            (Socket.accepts_flushWriteQueue _)
          exact Socket.accepts_nil rfl id
  | writeFailed =>
      simp only [outputs, handle]
      split
      · exact Socket.accepts_nil rfl id
      · exact Socket.accepts_nil rfl fun isOpen => Bool.noConfusion isOpen
  | waitExpired =>
      simp only [outputs, handle]
      split
      · exact Socket.accepts_nil rfl id
      · simp only [waitExpired, socket_setSocket]
        split
        · exact Socket.accepts_nil rfl fun isOpen =>
            Bool.noConfusion isOpen
        · exact Socket.accepts_nil rfl id
  | waitAborted =>
      simp only [outputs, handle]
      split <;> exact Socket.accepts_nil rfl id
  | push channel text =>
      exact session.socket.accepts_doWrite _ _

end Session

end Vortek
