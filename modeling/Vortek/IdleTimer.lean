import Vortek.AcceptedOutput
import Vortek.WaitableTimer

namespace Vortek

open WaitableTimer

/-!
# The idle timer

`Session` counts the waits that `reset_idle_timer` has started.  An
`IdleSession` also has the timer behind them: which call of `reset_idle_timer`
started each wait, and whether its handler is queued and how.  The handlers of
reads and writes reset the timer, closing the socket cancels it, and the time
may come at any point in between.

The handler of a wait looks at its error code and at the socket, not at what has
happened since.  When the time has come before a read resets the timer, the
handler is queued with success and closes a connection that is not idle.
-/

/-- A session with its idle timer. -/
structure IdleSession where
  session : Session
  timer : Timer

/-- What the event loop does: run a handler, or notice that time is up. -/
inductive IdleInput where
  | elapse
  | callback (index : Nat)
  | handler (input : SessionInput)

namespace Session

/-- The socket of a session is open. -/
def isOpen (session : Session) : Bool :=
  session.connection.transport.socketOpen

/-- Whether `reset_idle_timer` starts a wait. -/
def armsTimer (session : Session) : Bool :=
  session.idleTimeout ≠ 0 && session.isOpen

/-- Whether a handler calls `reset_idle_timer`. -/
def resetsTimer (session : Session) : SessionInput → Bool
  | .readDone _ _ _ => session.reads ≠ 0
  | .writeDone =>
      !session.writes.isEmpty &&
        session.connection.transport.writeQueue.isEmpty &&
        !session.connection.closeAfterWrite
  | _ => false

end Session

/-- The handlers of waits; the timer decides how they run. -/
def SessionInput.isWait : SessionInput → Bool
  | .waitExpired => true
  | .waitAborted => true
  | _ => false

namespace IdleSession

/-- `Connection::start`, which resets the timer of an open socket. -/
def start (connection : Connection) (idleTimeout : Nat) : IdleSession where
  session := Session.start connection idleTimeout
  timer :=
    (Timer.mk 0 []).reset
      (idleTimeout ≠ 0 && connection.transport.socketOpen)

/-- What a handler of the session does to the timer by itself. -/
def resetTimer (state : IdleSession) (input : SessionInput) : Timer :=
  if state.session.resetsTimer input then
    state.timer.reset state.session.armsTimer
  else
    state.timer

/-- Run a handler of the session; closing the socket cancels the timer. -/
def run
    (reserve : Reserve)
    (state : IdleSession)
    (input : SessionInput)
    (timer : Timer) :
    IdleSession :=
  let next := state.session.handle reserve input
  ⟨next, if next.isOpen then timer else timer.cancel⟩

/--
One step of the event loop.  The handler of a wait runs only if it is queued,
with success or as cancelled.
-/
def handle (reserve : Reserve) (state : IdleSession) :
    IdleInput → IdleSession
  | .elapse => { state with timer := state.timer.elapse }
  | .callback index =>
      match state.timer.waits[index]? with
      | some ⟨_, .expired⟩ =>
          state.run reserve .waitExpired (state.timer.finish index)
      | some ⟨_, .cancelled⟩ =>
          state.run reserve .waitAborted (state.timer.finish index)
      | _ => state
  | .handler input =>
      if input.isWait then
        state
      else
        state.run reserve input (state.resetTimer input)

/-- Steps of the event loop, one after the other. -/
def after
    (reserve : Reserve)
    (state : IdleSession)
    (inputs : List IdleInput) :
    IdleSession :=
  inputs.foldl (handle reserve) state

/-- The handler of a wait closes the socket. -/
def ClosesIdle
    (reserve : Reserve)
    (state : IdleSession)
    (index : Nat) :
    Prop :=
  state.session.isOpen = true ∧
    (state.handle reserve (.callback index)).session.isOpen = false

/-- `reset_idle_timer` has not been called since the wait was started. -/
def IsIdle (state : IdleSession) (index : Nat) : Prop :=
  (state.timer.waits[index]?).map Wait.reset = some state.timer.resets

/-- A handler restarts the timer while a wait is queued with success. -/
def overtakes (state : IdleSession) : IdleInput → Bool
  | .handler input =>
      state.session.resetsTimer input && state.session.armsTimer &&
        state.timer.hasExpired
  | _ => false

/-- No step restarts the timer while a wait is queued with success. -/
def Calm (reserve : Reserve) : IdleSession → List IdleInput → Prop
  | _, [] => True
  | state, input :: later =>
      state.overtakes input = false ∧
        Calm reserve (state.handle reserve input) later

instance (reserve : Reserve) (state : IdleSession) (index : Nat) :
    Decidable (state.ClosesIdle reserve index) :=
  inferInstanceAs (Decidable (_ ∧ _))

instance (state : IdleSession) (index : Nat) :
    Decidable (state.IsIdle index) :=
  inferInstanceAs (Decidable (_ = _))

instance decidableCalm (reserve : Reserve) :
    (state : IdleSession) →
    (inputs : List IdleInput) →
    Decidable (state.Calm reserve inputs)
  | _, [] => isTrue trivial
  | state, input :: later =>
      have := decidableCalm reserve (state.handle reserve input) later
      inferInstanceAs (Decidable (_ ∧ _))

end IdleSession

section Waits

/-- Neither reading nor writing starts a wait. -/
theorem Socket.waits_doRead
    (socket : Socket) :
    socket.doRead.waits = socket.waits := by
  unfold doRead
  split
  · rfl
  · rfl

theorem Socket.waits_flushWriteQueue
    (socket : Socket) :
    socket.flushWriteQueue.waits = socket.waits := by
  unfold flushWriteQueue
  split
  · rfl
  · split
    · rfl
    · rfl

theorem Socket.waits_doWrite
    (limit : Nat)
    (socket : Socket)
    (output : Output) :
    (socket.doWrite limit output).waits = socket.waits := by
  unfold doWrite
  split
  · split
    · rfl
    · dsimp only
      split
      · rfl
      · exact waits_flushWriteQueue _
  · rfl

theorem Socket.waits_performAll
    (limit : Nat)
    (socket : Socket)
    (calls : List SocketCall) :
    (calls.foldl (perform limit) socket).waits = socket.waits := by
  induction calls generalizing socket with
  | nil =>
      rfl
  | cons call later inductionHypothesis =>
      rw [List.foldl_cons, inductionHypothesis]
      cases call with
      | doRead =>
          exact waits_doRead socket
      | doWrite output =>
          exact waits_doWrite limit socket output

theorem Socket.waits_resetIdleTimer
    (idleTimeout : Nat)
    (socket : Socket) :
    (socket.resetIdleTimer idleTimeout).waits =
      socket.waits +
        if (idleTimeout ≠ 0 && socket.transport.socketOpen) = true then 1
        else 0 := by
  unfold resetIdleTimer
  by_cases never : idleTimeout = 0
  · simp [never]
  · cases socket.transport.socketOpen with
    | false =>
        simp
    | true =>
        simp [never]

namespace Session

variable (reserve : Reserve) (session : Session) (input : SessionInput)

/-- A closed socket is not opened again. -/
theorem isOpen_of_handle
    (isOpen : (session.handle reserve input).isOpen = true) :
    session.isOpen = true :=
  ((session.handle_accepts reserve input).whole isOpen).1

theorem handle_idleTimeout :
    (session.handle reserve input).idleTimeout = session.idleTimeout := by
  cases input with
  | readDone server clock chunk =>
      simp only [handle]
      split
      · rfl
      · rfl
  | readFailed | writeFailed | waitExpired | waitAborted =>
      simp only [handle]
      split
      · rfl
      · rfl
  | writeDone =>
      simp only [handle, writeDone]
      split
      · rfl
      · rfl
  | push channel text =>
      rfl

/-- A timer that is in use after a handler was so before it. -/
theorem armsTimer_of_handle
    (arms : (session.handle reserve input).armsTimer = true) :
    session.armsTimer = true := by
  rw [armsTimer, handle_idleTimeout, Bool.and_eq_true] at arms
  rw [armsTimer, Bool.and_eq_true]
  exact ⟨arms.1, session.isOpen_of_handle reserve input arms.2⟩

omit reserve input in
theorem waits_writeDone :
    session.writeDone.waits =
      session.waits +
        if (session.resetsTimer .writeDone && session.armsTimer) = true
        then 1
        else 0 := by
  unfold writeDone
  split
  · rename_i none
    simp [resetsTimer, none]
  · rename_i buffer others writing
    dsimp only [setSocket]
    split
    · rename_i empty
      split
      · rename_i closes
        have still : session.resetsTimer .writeDone = false := by
          simp [resetsTimer, closes]
        rw [still]
        rfl
      · rename_i stays
        have resets : session.resetsTimer .writeDone = true := by
          simp only [resetsTimer, writing, Bool.and_eq_true]
          exact ⟨⟨rfl, empty⟩, by simpa using stays⟩
        rw [resets, Socket.waits_doRead, Socket.waits_resetIdleTimer,
          Bool.true_and]
        rfl
    · rename_i filled
      have still : session.resetsTimer .writeDone = false := by
        have queued :
            session.connection.transport.writeQueue.isEmpty = false :=
          Bool.eq_false_iff.mpr filled
        simp only [resetsTimer, queued, Bool.and_false, Bool.false_and]
      rw [still, Socket.waits_flushWriteQueue]
      rfl

/-- The waits that a session counts are those that its handlers start. -/
theorem waits_handle
    (other : input.isWait = false) :
    (session.handle reserve input).waits =
      session.waits +
        if (session.resetsTimer input && session.armsTimer) = true then 1
        else 0 := by
  cases input with
  | readDone server clock chunk =>
      simp only [handle, resetsTimer]
      split
      · rename_i none
        simp [none]
      · rename_i outstanding
        simp only [readDone, setSocket, Socket.waits_performAll]
        rw [beginData, socket_setSocket, Socket.waits_resetIdleTimer]
        simp only [decide_eq_true outstanding, Bool.true_and]
        rfl
  | readFailed | writeFailed =>
      simp only [handle]
      split
      · rfl
      · rfl
  | waitExpired | waitAborted =>
      cases other
  | writeDone =>
      exact session.waits_writeDone
  | push channel text =>
      exact Socket.waits_doWrite _ _ _

omit input in
/-- The handler of a wait ends it. -/
theorem waits_waitExpired :
    (session.handle reserve .waitExpired).waits = session.waits - 1 := by
  simp only [handle]
  split
  · rename_i none
    rw [none]
  · simp only [waitExpired, setSocket]
    split
    · rfl
    · rfl

omit input in
theorem isOpen_waitAborted :
    (session.handle reserve .waitAborted).isOpen = session.isOpen := by
  simp only [handle]
  split
  · rfl
  · rfl

omit input in
theorem waits_waitAborted :
    (session.handle reserve .waitAborted).waits = session.waits - 1 := by
  simp only [handle]
  split
  · rename_i none
    rw [none]
  · rfl

end Session

end Waits

namespace IdleSession

variable {reserve : Reserve} {state : IdleSession}

/-- The timer holds the waits that the session counts. -/
def Counted (state : IdleSession) : Prop :=
  state.timer.waits.length = state.session.waits

theorem counted_start
    (connection : Connection)
    (idleTimeout : Nat) :
    (start connection idleTimeout).Counted := by
  refine (Timer.length_reset _ _).trans ?_
  refine Eq.trans ?_ (Socket.waits_doRead _).symm
  rw [Socket.waits_resetIdleTimer]
  rfl

/-- A handler that leaves as many waits as its session counts. -/
theorem counted_run
    {input : SessionInput}
    {timer : Timer}
    (same :
      timer.waits.length = (state.session.handle reserve input).waits) :
    (state.run reserve input timer).Counted := by
  unfold Counted run
  dsimp only
  split
  · exact same
  · rw [Timer.length_cancel, same]

theorem Counted.handle
    (counted : state.Counted)
    (input : IdleInput) :
    (state.handle reserve input).Counted := by
  cases input with
  | elapse =>
      exact (Timer.length_elapse state.timer).trans counted
  | callback index =>
      simp only [IdleSession.handle]
      split
      · rename_i queued
        apply counted_run
        rw [Timer.length_finish queued, counted, Session.waits_waitExpired]
      · rename_i queued
        apply counted_run
        rw [Timer.length_finish queued, counted, Session.waits_waitAborted]
      · exact counted
  | handler input =>
      simp only [IdleSession.handle]
      split
      · exact counted
      · rename_i other
        apply counted_run
        rw [state.session.waits_handle reserve input
          (Bool.eq_false_iff.mpr other), resetTimer]
        cases state.session.resetsTimer input with
        | false =>
            exact counted
        | true =>
            rw [if_pos rfl, Timer.length_reset, counted, Bool.true_and]

/-- A step runs one handler of the session or none. -/
theorem exists_handlers
    (reserve : Reserve)
    (state : IdleSession)
    (input : IdleInput) :
    ∃ handlers,
      (state.handle reserve input).session =
        state.session.after reserve handlers := by
  cases input with
  | elapse =>
      exact ⟨[], rfl⟩
  | callback index =>
      simp only [handle]
      split
      · exact ⟨[.waitExpired], rfl⟩
      · exact ⟨[.waitAborted], rfl⟩
      · exact ⟨[], rfl⟩
  | handler input =>
      simp only [handle]
      split
      · exact ⟨[], rfl⟩
      · exact ⟨[input], rfl⟩

/--
In every run the session goes through handlers of its own, and counts the waits
that the timer holds.
-/
theorem after_refines
    (connection : Connection)
    (idleTimeout : Nat)
    (inputs : List IdleInput) :
    let state := (start connection idleTimeout).after reserve inputs
    state.Counted ∧
      ∃ handlers,
        state.session =
          (Session.start connection idleTimeout).after reserve
            handlers := by
  induction inputs using List.reverseRecOn with
  | nil =>
      exact ⟨counted_start connection idleTimeout, [], rfl⟩
  | append_singleton earlier input inductionHypothesis =>
      obtain ⟨counted, handlers, same⟩ := inductionHypothesis
      obtain ⟨last, ran⟩ :=
        exists_handlers reserve
          ((start connection idleTimeout).after reserve earlier) input
      rw [after, List.foldl_concat]
      refine ⟨counted.handle input, handlers ++ last, ?_⟩
      rw [Session.after, List.foldl_append]
      refine ran.trans ?_
      rw [same]
      rfl

/-- Every wait that is not cancelled belongs to the last reset. -/
structure Current (state : IdleSession) : Prop where
  unused : state.session.idleTimeout = 0 → state.timer.waits = []
  current : state.session.armsTimer = true → state.timer.Current

theorem current_start
    (connection : Connection)
    (idleTimeout : Nat) :
    (start connection idleTimeout).Current := by
  refine ⟨?_, fun _ => ?_⟩
  · intro never
    obtain rfl : idleTimeout = 0 := never
    rfl
  · unfold start
    cases (idleTimeout ≠ 0 && connection.transport.socketOpen) with
    | false =>
        exact Timer.current_nil 1
    | true =>
        exact Timer.current_reset rfl

/-- What a handler makes of the timer, it stays when the socket closes. -/
theorem Current.run
    {timer : Timer}
    (unused : state.session.idleTimeout = 0 → timer.waits = [])
    (current : state.session.armsTimer = true → timer.Current)
    (input : SessionInput) :
    (state.run reserve input timer).Current := by
  refine ⟨fun never => ?_, fun arms => ?_⟩
  · have none :=
      unused ((state.session.handle_idleTimeout reserve input).symm.trans
        never)
    unfold IdleSession.run
    dsimp only
    split
    · exact none
    · rw [Timer.cancel, none]
      rfl
  · have kept :=
      current (state.session.armsTimer_of_handle reserve input arms)
    unfold IdleSession.run
    dsimp only
    split
    · exact kept
    · exact kept.cancel

theorem Current.handle
    (current : state.Current)
    {input : IdleInput}
    (calm : state.overtakes input = false) :
    (state.handle reserve input).Current := by
  cases input with
  | elapse =>
      refine ⟨fun never => ?_, fun arms => (current.current arms).elapse⟩
      change state.timer.waits.map Wait.expire = []
      rw [current.unused never, List.map_nil]
  | callback index =>
      have finished (input : SessionInput) :
          (state.run reserve input (state.timer.finish index)).Current :=
        Current.run
          (fun never => by
            change state.timer.waits.eraseIdx index = []
            rw [current.unused never, List.eraseIdx_nil])
          (fun arms => (current.current arms).finish index) input
      simp only [IdleSession.handle]
      split
      · exact finished .waitExpired
      · exact finished .waitAborted
      · exact current
  | handler input =>
      simp only [IdleSession.handle]
      split
      · exact current
      · apply Current.run
        · intro never
          have idle : state.session.armsTimer = false := by
            simp [Session.armsTimer, never]
          unfold resetTimer
          split
          · rw [idle]
            exact current.unused never
          · exact current.unused never
        · intro arms
          unfold resetTimer
          split
          · rename_i resets
            have none : state.timer.hasExpired = false := by
              simpa [overtakes, resets, arms] using calm
            rw [arms]
            exact Timer.current_reset none
          · exact current.current arms

/-- A connection that the idle timer closes has been idle. -/
theorem Current.isIdle
    (current : state.Current)
    {index : Nat}
    (closes : state.ClosesIdle reserve index) :
    state.IsIdle index := by
  obtain ⟨isOpen, isClosed⟩ := closes
  simp only [IdleSession.handle] at isClosed
  split at isClosed
  · rename_i reset queued
    have member := List.mem_of_getElem? queued
    have used : state.session.idleTimeout ≠ 0 := by
      intro never
      rw [current.unused never] at member
      exact List.not_mem_nil member
    have arms : state.session.armsTimer = true := by
      rw [Session.armsTimer, isOpen, Bool.and_true]
      exact decide_eq_true used
    rw [IsIdle, queued, Option.map_some]
    exact congrArg some (current.current arms _ member (by simp))
  · -- The handler of a cancelled wait returns at once.
    have kept := state.session.isOpen_waitAborted reserve
    rw [isOpen] at kept
    exact absurd (kept.symm.trans isClosed) (by decide)
  · rw [isOpen] at isClosed
    cases isClosed

/-- Whatever a calm run has reached, the timer is current. -/
theorem Current.after
    (current : state.Current)
    {inputs : List IdleInput}
    (calm : state.Calm reserve inputs) :
    (state.after reserve inputs).Current := by
  induction inputs generalizing state with
  | nil =>
      exact current
  | cons input later inductionHypothesis =>
      exact inductionHypothesis (current.handle calm.1) calm.2

/-- The beginning of a calm run is calm. -/
theorem Calm.of_append
    {earlier later : List IdleInput}
    (calm : state.Calm reserve (earlier ++ later)) :
    state.Calm reserve earlier := by
  induction earlier generalizing state with
  | nil =>
      trivial
  | cons input earlier inductionHypothesis =>
      exact ⟨calm.1, inductionHypothesis calm.2⟩

end IdleSession

/--
In a run of the event loop that never restarts the timer while a wait is queued
with success, the idle timer closes the socket only if `reset_idle_timer` has
not been called since the wait was started.
-/
theorem IdleSession.closes_only_idle
    (reserve : Reserve)
    (connection : Connection)
    (idleTimeout : Nat)
    (inputs : List IdleInput)
    (calm : (start connection idleTimeout).Calm reserve inputs) :
    ∀ earlier index later,
      inputs = earlier ++ .callback index :: later →
      let state := (start connection idleTimeout).after reserve earlier
      state.ClosesIdle reserve index →
      state.IsIdle index := by
  rintro earlier index later rfl state closes
  have current : state.Current :=
    (current_start connection idleTimeout).after calm.of_append
  exact current.isIdle closes

/-- A client that sends PING, reads the reply and stays away. -/
theorem IdleSession.closes_only_idle_after_ping :
    let connection := Connection.create 0 [] 1048576 1048576
    let ping := ascii "*1\r\n$4\r\nPING\r\n"
    let read :=
      IdleInput.handler
        (.readDone ⟨Backend.initial, none⟩ (fun _ => 0) ping)
    let state :=
      (start connection 300).after (fun _ => none)
        [read, .handler .writeDone, .elapse]
    state.ClosesIdle (fun _ => none) 2 ∧ state.IsIdle 2 := by
  intro connection ping read state
  have closes : state.ClosesIdle (fun _ => none) 2 := by
    decide +kernel
  refine ⟨closes, ?_⟩
  exact closes_only_idle (fun _ => none) connection 300
    [read, .handler .writeDone, .elapse, .callback 2] (by decide +kernel)
    [read, .handler .writeDone, .elapse] 2 [] rfl closes

/--
The time is up before the handler of a read runs: the read resets the timer, and
the handler that is queued closes the connection all the same.
-/
theorem IdleSession.closes_after_reset :
    let connection := Connection.create 0 [] 1048576 1048576
    let ping := ascii "*1\r\n$4\r\nPING\r\n"
    let read :=
      IdleInput.handler
        (.readDone ⟨Backend.initial, none⟩ (fun _ => 0) ping)
    let state :=
      (start connection 300).after (fun _ => none) [.elapse, read]
    state.ClosesIdle (fun _ => none) 0 ∧ ¬state.IsIdle 0 := by
  decide +kernel

end Vortek
