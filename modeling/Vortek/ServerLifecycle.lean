import Vortek.Delivery
import Vortek.ServerProcess
import Vortek.TurnRecords

namespace Vortek

open EmittingMachine

/-!
# The life of a server

While the event loop runs, exactly one accept is outstanding and the server says
that it is ready.  The loop ends when the poll timer elapses behind a signal, or
by an exception in the handler of an accept, and in no other way; nothing is
served after that.
-/

namespace EventLoop

/-- A connection is pointed to by what is posted and by the broker. -/
theorem isHeld_congr
    {loop next : EventLoop}
    (broker : next.server.backend.broker = loop.server.backend.broker)
    (posted : next.server.backend.posted = loop.server.backend.posted)
    (id : Nat)
    (session : Session) :
    next.isHeld id session = loop.isHeld id session := by
  unfold isHeld isBusy
  rw [broker, posted]

/-- Only these parts of the shared state are in the invariant. -/
theorem Sound.setBackend
    {loop : EventLoop}
    (sound : loop.Sound)
    {backend : Backend}
    (broker : backend.broker = loop.server.backend.broker)
    (posted : backend.posted = loop.server.backend.posted)
    (clients :
      backend.stats.connectedClients =
        loop.server.backend.stats.connectedClients) :
    (loop.setBackend backend).Sound := by
  obtain ⟨consistent, held⟩ := sound
  refine ⟨⟨?_, consistent.own, consistent.joined, consistent.live, ?_, ?_⟩,
    ?_⟩
  · obtain ⟨found, serves, wired⟩ := consistent.broker
    exact ⟨found, broker.trans serves, wired⟩
  · intro delivery member
    have member : delivery ∈ backend.posted := member
    rw [posted] at member
    exact consistent.addressed delivery member
  · exact clients.trans consistent.counted
  · intro id session found
    rw [isHeld_congr broker posted]
    exact held id session found

theorem Sound.setReady
    {loop : EventLoop}
    (sound : loop.Sound)
    (ready : Bool) :
    (loop.setReady ready).Sound :=
  sound.setBackend rfl rfl rfl

theorem Sound.sweep
    {loop : EventLoop}
    (sound : loop.Sound)
    (now : TimePoint) :
    (loop.sweep now).Sound :=
  sound.setBackend rfl rfl rfl

/-- Releasing a connection touches no counter but that of the clients. -/
theorem stats_release
    (loop : EventLoop)
    (id : Nat) :
    ∃ clients,
      (loop.release id).server.backend.stats =
        loop.server.backend.stats.setClients clients := by
  rcases loop.release_cases id with ⟨same, -⟩ | ⟨session, -, -, same⟩
  · exact ⟨_, congrArg (fun next => next.server.backend.stats) same⟩
  · exact ⟨_, congrArg (fun next => next.server.backend.stats) same⟩

/-- A completion counts the commands that it executes. -/
theorem stats_handle
    (reserve : Reserve)
    (loop : EventLoop)
    (id : Nat)
    (session : Session)
    (completion : Completion) :
    (loop.handle reserve id session completion).server.backend.stats =
      loop.server.backend.stats.counting
        ((session.executes reserve loop.server completion).countP
          Dispatch.returned) := by
  have nothing := loop.server.backend.stats.counting_zero.symm
  cases completion with
  | readDone clock chunk =>
      by_cases outstanding : session.reads = 0
      · simp only [handle, Session.serverAfter, Session.executes,
          outstanding, if_true]
        exact nothing
      · simp only [handle, Session.serverAfter, Session.executes,
          outstanding, if_false]
        exact session.beginData.connection.handleData_stats loop.server
          chunk
  | readFailed | writeDone | writeFailed | waitExpired | waitAborted =>
      exact nothing

/-- A task counts the commands that it executes, and keeps the flag. -/
theorem stats_step
    (config : ServerConfig)
    (reserve : Reserve)
    (loop : EventLoop)
    (event : LoopEvent) :
    ∃ clients,
      (loop.step config reserve event).server.backend.stats =
        (loop.server.backend.stats.counting
          ((loop.executes reserve event).countP
            Dispatch.returned)).setClients clients := by
  have nothing := loop.server.backend.stats.counting_zero
  cases event with
  | accept id =>
      simp only [executes, List.countP_nil, nothing, step, accept]
      split
      · exact ⟨_, rfl⟩
      · split
        · exact ⟨_, rfl⟩
        · exact ⟨_, rfl⟩
  | complete id completion =>
      cases found : loop.sessions.lookup id with
      | none =>
          simp only [executes, step, found, List.countP_nil, nothing]
          exact ⟨_, rfl⟩
      | some session =>
          simp only [executes, step, found]
          rw [← stats_handle reserve loop id session completion]
          exact stats_release _ id
  | runPosted =>
      simp only [executes, List.countP_nil, nothing, step]
      split
      · exact ⟨_, rfl⟩
      · split
        · exact ⟨_, rfl⟩
        · exact (loop.deliver _ _ _).stats_release _

end EventLoop

/-- READY is answered by the flag that it finds. -/
theorem Dispatch.reply_ready
    {dispatch : Dispatch}
    (ready : dispatch.backend.stats.ready = true)
    (asks : dispatch.cmd = ⟨ascii "READY", []⟩) :
    dispatch.reply = .simpleString (ascii "READY") := by
  obtain ⟨now, backend, cmd⟩ := dispatch
  subst asks
  have found :
      ∀ withBroker,
        (Dispatcher.makeDefault withBroker).handlers.lookup
            (ascii "READY") =
          some cmdReady := by
    intro withBroker
    cases withBroker <;> rfl
  have flag : backend.stats.ready = true := ready
  simp only [Dispatch.reply, Dispatch.outcome, Backend.dispatch,
    Dispatcher.dispatch, found, cmdReady, Backend.exec,
    CallScript.Script.run_invoke_bind, Backend.step, flag, if_true]
  rfl

namespace Process

/-- The flag that READY and METRICS report. -/
def ready (process : Process) : Bool :=
  process.loop.server.backend.stats.ready

/-- What holds of a process between handlers. -/
structure Orderly (process : Process) : Prop where
  running :
    process.ending = none →
    process.stopping = false ∧
      process.acceptorOpen = true ∧
      process.ready = true ∧
      process.accepts = 1 ∧
      process.polls ≤ 1
  stopped :
    process.ending = some .stopped →
    process.stopping = true ∧
      process.acceptorOpen = false ∧
      process.ready = false
  sound : process.loop.Sound

/-- What an event does to a process that is in order. -/
inductive Progress
    (reserve : Reserve)
    (process : Process) :
    ProcessEvent → Process → Prop where
  | ignored
      (event : ProcessEvent)
      (impossible : process.enabled event = false) :
      Progress reserve process event process
  | signalled
      (signal : Signal) :
      Progress reserve process (.signal signal)
        { process with lastSignal := signal.number }
  | swept
      (now : TimePoint) :
      Progress reserve process (.sweep now)
        { process with loop := process.loop.sweep now }
  | refused
      (id : Nat)
      (connected : Bool)
      (running : process.ending = none)
      (full : process.isFull = true) :
      Progress reserve process (.acceptDone (.socket id connected))
        { process with
          refused := process.refused ++
            [(err "ERR max number of clients reached").serialize] }
  | admitted
      (id : Nat)
      (running : process.ending = none)
      (free : id ∉ process.loop.sessions)
      (room : process.isFull = false) :
      Progress reserve process (.acceptDone (.socket id true))
        { process with loop := process.loop.addClient process.config id }
  | threw
      (id : Nat)
      (running : process.ending = none)
      (free : id ∉ process.loop.sessions)
      (room : process.isFull = false) :
      Progress reserve process (.acceptDone (.socket id false))
        { process with accepts := 0, ending := some .threw }
  | acceptFailed
      (running : process.ending = none) :
      Progress reserve process (.acceptDone .failed) process
  | polled
      (running : process.ending = none)
      (waiting : process.polls = 1)
      (quiet : process.lastSignal = 0) :
      Progress reserve process (.pollDone .elapsed) process
  | stopped
      (running : process.ending = none)
      (waiting : process.polls = 1)
      (signalled : process.lastSignal ≠ 0) :
      Progress reserve process (.pollDone .elapsed)
        { process with
          loop := process.loop.setReady false
          polls := 0
          acceptorOpen := false
          stopping := true
          ending := some .stopped }
  | pollFailed
      (running : process.ending = none)
      (waiting : process.polls = 1) :
      Progress reserve process (.pollDone .failed)
        { process with polls := 0 }
  | completed
      (id : Nat)
      (completion : Completion)
      (running : process.ending = none) :
      Progress reserve process (.complete id completion)
        { process with
          loop :=
            process.loop.step process.config reserve
              (.complete id completion) }
  | delivered
      (running : process.ending = none) :
      Progress reserve process .runPosted
        { process with
          loop := process.loop.step process.config reserve .runPosted }

section Steps

variable {reserve : Reserve} {process : Process}

/-- The handler of the only accept that is outstanding. -/
theorem Orderly.progress_acceptDone
    (orderly : process.Orderly)
    {result : AcceptResult}
    (possible : process.enabled (.acceptDone result) = true) :
    Progress reserve process (.acceptDone result)
      (process.perform reserve (.acceptDone result)) := by
  obtain ⟨config, loop, accepts, polls, acceptorOpen, stopping, ending,
    lastSignal, refused⟩ := process
  cases result with
  | socket id connected =>
      simp only [enabled, Bool.and_eq_true, Option.isNone_iff_eq_none]
        at possible
      obtain ⟨⟨rfl, -⟩, free⟩ := possible
      obtain ⟨rfl, rfl, ready, rfl, polls⟩ := orderly.running rfl
      have free : id ∉ loop.sessions := AList.lookup_eq_none.mp free
      simp only [perform, handleAccept]
      split
      · rename_i full
        exact .refused id connected rfl full
      · rename_i room
        have room := Bool.eq_false_iff.mpr room
        cases connected with
        | true =>
            exact .admitted id rfl free room
        | false =>
            exact .threw id rfl free room
  | aborted =>
      simp only [enabled, Bool.and_eq_true, Option.isNone_iff_eq_none]
        at possible
      obtain ⟨⟨rfl, -⟩, closed⟩ := possible
      obtain ⟨-, rfl, -⟩ := orderly.running rfl
      cases closed
  | failed =>
      simp only [enabled, Bool.and_eq_true, Option.isNone_iff_eq_none]
        at possible
      obtain ⟨⟨rfl, -⟩, -⟩ := possible
      obtain ⟨rfl, rfl, ready, rfl, polls⟩ := orderly.running rfl
      exact .acceptFailed rfl

/-- The handler of the only wait of the poll timer. -/
theorem Orderly.progress_pollDone
    (orderly : process.Orderly)
    {result : PollResult}
    (possible : process.enabled (.pollDone result) = true) :
    Progress reserve process (.pollDone result)
      (process.perform reserve (.pollDone result)) := by
  obtain ⟨config, loop, accepts, polls, acceptorOpen, stopping, ending,
    lastSignal, refused⟩ := process
  simp only [enabled, Bool.and_eq_true, Option.isNone_iff_eq_none,
    decide_eq_true_eq] at possible
  obtain ⟨⟨rfl, outstanding⟩, cancelled⟩ := possible
  obtain ⟨rfl, rfl, ready, rfl, atMost⟩ := orderly.running rfl
  have waiting : polls = 1 :=
    Nat.le_antisymm atMost (Nat.pos_of_ne_zero outstanding)
  subst waiting
  cases result with
  | elapsed =>
      by_cases quiet : lastSignal = 0
      · subst quiet
        exact .polled rfl rfl rfl
      · have stops :
            (Process.mk config loop 1 1 true false none lastSignal
              refused).perform reserve (.pollDone .elapsed) =
              ⟨config, loop.setReady false, 1, 0, false, true,
                some .stopped, lastSignal, refused⟩ := by
          simp [perform, handlePoll, pollSignalFlag, quiet, stop, setReady]
        rw [stops]
        exact .stopped rfl rfl quiet
  | aborted =>
      simp at cancelled
  | failed =>
      exact .pollFailed rfl rfl

theorem Orderly.step_progress
    (orderly : process.Orderly)
    (reserve : Reserve)
    (event : ProcessEvent) :
    Progress reserve process event (process.step reserve event) := by
  unfold step
  cases possible : process.enabled event with
  | false =>
      exact .ignored event possible
  | true =>
      simp only [if_true]
      cases event with
      | signal signal =>
          exact .signalled signal
      | sweep now =>
          exact .swept now
      | acceptDone result =>
          exact orderly.progress_acceptDone possible
      | pollDone result =>
          exact orderly.progress_pollDone possible
      | complete id completion =>
          exact .completed id completion
            (Option.isNone_iff_eq_none.mp possible)
      | runPosted =>
          exact .delivered (Option.isNone_iff_eq_none.mp possible)

/-- A task of the event loop leaves the server itself alone. -/
theorem Orderly.looped
    (orderly : process.Orderly)
    (running : process.ending = none)
    (event : LoopEvent) :
    { process with
      loop := process.loop.step process.config reserve event }.Orderly := by
  obtain ⟨clients, stats⟩ :=
    process.loop.stats_step process.config reserve event
  obtain ⟨stopping, isOpen, isReady, accepts, polls⟩ :=
    orderly.running running
  refine ⟨fun _ => ⟨stopping, isOpen, ?_, accepts, polls⟩, fun ended => ?_,
    orderly.sound.step event⟩
  · unfold ready
    rw [stats]
    exact isReady
  · exact absurd (running.symm.trans ended).symm (Option.some_ne_none _)

theorem Orderly.step
    (orderly : process.Orderly)
    (reserve : Reserve)
    (event : ProcessEvent) :
    (process.step reserve event).Orderly := by
  have progress := orderly.step_progress reserve event
  generalize process.step reserve event = next at progress ⊢
  cases progress with
  | ignored | acceptFailed | polled =>
      exact orderly
  | signalled | refused =>
      exact ⟨orderly.running, orderly.stopped, orderly.sound⟩
  | swept now =>
      exact ⟨orderly.running, orderly.stopped, orderly.sound.sweep now⟩
  | admitted id running free room =>
      exact ⟨orderly.running, orderly.stopped,
        orderly.sound.consistent.addClient free process.config,
        EventLoop.held_addClient orderly.sound.consistent
          orderly.sound.held free process.config⟩
  | threw =>
      exact ⟨fun ended => absurd ended (Option.some_ne_none _),
        fun ended => LoopEnd.noConfusion (Option.some.inj ended),
        orderly.sound⟩
  | stopped =>
      exact ⟨fun ended => absurd ended (Option.some_ne_none _),
        fun _ => ⟨rfl, rfl, rfl⟩, orderly.sound.setReady false⟩
  | pollFailed running =>
      obtain ⟨stopping, isOpen, ready, accepts, -⟩ :=
        orderly.running running
      exact ⟨fun _ => ⟨stopping, isOpen, ready, accepts, Nat.zero_le 1⟩,
        orderly.stopped, orderly.sound⟩
  | completed id completion running =>
      exact orderly.looped running (.complete id completion)
  | delivered running =>
      exact orderly.looped running .runPosted

/-- What an event does to the event loop of a process. -/
inductive LoopChange
    (reserve : Reserve)
    (process : Process) :
    List Dispatch → EventLoop → Prop where
  | kept :
      LoopChange reserve process [] process.loop
  | swept
      (now : TimePoint) :
      LoopChange reserve process [] (process.loop.sweep now)
  | closed :
      LoopChange reserve process [] (process.loop.setReady false)
  | admitted
      (id : Nat)
      (free : id ∉ process.loop.sessions)
      (room : process.isFull = false) :
      LoopChange reserve process []
        (process.loop.addClient process.config id)
  | ran
      (event : LoopEvent)
      (other : ∀ id, event ≠ .accept id) :
      LoopChange reserve process (process.loop.executes reserve event)
        (process.loop.step process.config reserve event)

/-- An event changes the event loop and executes commands accordingly. -/
theorem Orderly.step_loopChange
    (orderly : process.Orderly)
    (reserve : Reserve)
    (event : ProcessEvent) :
    (process.step reserve event).config = process.config ∧
      process.LoopChange reserve (process.executes reserve event)
        (process.step reserve event).loop := by
  have progress := orderly.step_progress reserve event
  generalize process.step reserve event = next at progress ⊢
  cases progress with
  | ignored event impossible =>
      refine ⟨rfl, ?_⟩
      cases event with
      | complete id completion =>
          have ended : process.ending.isNone = false := impossible
          simp only [executes, ended, Bool.false_eq_true, if_false]
          exact .kept
      | signal | sweep | acceptDone | pollDone | runPosted =>
          exact .kept
  | swept now =>
      exact ⟨rfl, .swept now⟩
  | signalled | refused | threw | acceptFailed | polled | pollFailed =>
      exact ⟨rfl, .kept⟩
  | admitted id running free room =>
      exact ⟨rfl, .admitted id free room⟩
  | stopped =>
      exact ⟨rfl, .closed⟩
  | completed id completion running =>
      simp only [executes, running, Option.isNone_none, if_true]
      exact ⟨trivial, .ran _ fun _ => LoopEvent.noConfusion⟩
  | delivered =>
      exact ⟨rfl, .ran .runPosted fun _ => LoopEvent.noConfusion⟩

/-- Only signals change the flag that is polled. -/
theorem Orderly.lastSignal_step
    (orderly : process.Orderly)
    (event : ProcessEvent) :
    (∃ signal,
        event = .signal signal ∧
          (process.step reserve event).lastSignal = signal.number) ∨
      (∀ signal, event ≠ .signal signal) ∧
        (process.step reserve event).lastSignal = process.lastSignal := by
  have progress := orderly.step_progress reserve event
  generalize process.step reserve event = next at progress ⊢
  cases progress with
  | signalled signal =>
      exact Or.inl ⟨signal, rfl, rfl⟩
  | ignored event impossible =>
      refine Or.inr ⟨?_, rfl⟩
      rintro signal rfl
      cases impossible
  | swept | refused | admitted | threw | acceptFailed | polled | stopped
  | pollFailed | completed | delivered =>
      exact Or.inr ⟨fun _ => ProcessEvent.noConfusion, rfl⟩

/-- While the loop runs, the poll timer is waited for until a wait fails. -/
theorem Orderly.polls_step
    (orderly : process.Orderly)
    (event : ProcessEvent)
    (runs : (process.step reserve event).ending = none) :
    process.ending = none ∧
      ((process.step reserve event).polls = 1 ↔
        process.polls = 1 ∧ event ≠ .pollDone .failed) := by
  have progress := orderly.step_progress reserve event
  generalize process.step reserve event = next at progress runs ⊢
  cases progress with
  | ignored event impossible =>
      refine ⟨runs, fun waiting => ⟨waiting, ?_⟩, And.left⟩
      rintro rfl
      simp [enabled, runs, waiting] at impossible
  | threw | stopped =>
      cases runs
  | pollFailed =>
      exact ⟨runs, fun waiting => absurd waiting Nat.zero_ne_one,
        fun waiting => absurd rfl waiting.2⟩
  | polled running waiting =>
      exact ⟨runs, fun _ => ⟨waiting, by simp⟩, And.left⟩
  | signalled | swept | refused | admitted | acceptFailed | completed
  | delivered =>
      exact ⟨runs, fun waiting => ⟨waiting, by simp⟩, And.left⟩

/-- What becomes of a process when the loop has ended. -/
structure Outlives (process next : Process) : Prop where
  ending : next.ending = process.ending
  sessions : next.loop.sessions = process.loop.sessions
  history : next.loop.history = process.loop.history
  aof : next.loop.server.aof = process.loop.server.aof
  refused : next.refused = process.refused

theorem Orderly.step_ended
    (orderly : process.Orderly)
    (ended : process.ending ≠ none)
    (event : ProcessEvent) :
    process.Outlives (process.step reserve event) := by
  have progress := orderly.step_progress reserve event
  generalize process.step reserve event = next at progress ⊢
  cases progress with
  | ignored | signalled | swept =>
      exact ⟨rfl, rfl, rfl, rfl, rfl⟩
  | refused _ _ running | admitted _ running | threw _ running
  | acceptFailed running | polled running | stopped running
  | pollFailed running | completed _ _ running | delivered running =>
      exact absurd running ended

/-- The timer elapses behind a signal. -/
theorem Orderly.step_elapsed
    (orderly : process.Orderly)
    (running : process.ending = none)
    (waiting : process.polls = 1)
    (signalled : process.lastSignal ≠ 0) :
    (process.step reserve (.pollDone .elapsed)).ending =
      some .stopped := by
  have stopping := (orderly.running running).1
  simp [Process.step, enabled, running, waiting, perform, handlePoll, stopping,
    pollSignalFlag, signalled, stop]

/-- A client is accepted that is gone already. -/
theorem Orderly.step_lost
    (orderly : process.Orderly)
    {id : Nat}
    (running : process.ending = none)
    (free : id ∉ process.loop.sessions)
    (room : process.isFull = false) :
    (process.step reserve (.acceptDone (.socket id false))).ending =
      some .threw := by
  obtain ⟨-, -, -, accepts, -⟩ := orderly.running running
  have unused := AList.lookup_eq_none.mpr free
  have possible :
      process.enabled (.acceptDone (.socket id false)) = true := by
    simp [enabled, running, accepts, unused]
  have still :
      { process with accepts := process.accepts - 1 }.isFull = false :=
    room
  unfold Process.step
  rw [if_pos possible]
  unfold perform handleAccept
  rw [still]
  rfl

/-- What makes the loop end, and how. -/
def Causes
    (process : Process)
    (event : ProcessEvent) :
    LoopEnd → Prop
  | .stopped =>
      event = .pollDone .elapsed ∧
        process.polls = 1 ∧ process.lastSignal ≠ 0
  | .threw =>
      ∃ id,
        event = .acceptDone (.socket id false) ∧
          id ∉ process.loop.sessions ∧ process.isFull = false

/-- An event that makes the loop end is a cause of it. -/
theorem Orderly.ends_by
    (orderly : process.Orderly)
    {event : ProcessEvent}
    {how : LoopEnd}
    (before : process.ending ≠ some how)
    (ends : (process.step reserve event).ending = some how) :
    process.ending = none ∧ process.Causes event how := by
  have progress := orderly.step_progress reserve event
  generalize process.step reserve event = next at progress ends
  cases progress with
  | threw id running free room =>
      cases ends
      exact ⟨running, id, rfl, free, room⟩
  | stopped running waiting signalled =>
      cases ends
      exact ⟨running, rfl, waiting, signalled⟩
  | ignored | signalled | swept | refused | admitted | acceptFailed
  | polled | pollFailed | completed | delivered =>
      exact absurd ends before

end Steps

section Runs

variable {reserve : Reserve}

theorem orderly_launch
    (around : Surroundings)
    (cfg : Config) :
    (launch reserve around cfg).Orderly := by
  have sound :=
    (EventLoop.sound_start (cfg.fresh_prepare reserve around)).setReady true
  exact ⟨fun _ => ⟨rfl, rfl, rfl, rfl, Nat.le_refl 1⟩,
    fun ended => absurd ended.symm (Option.some_ne_none _), sound⟩

theorem Orderly.after
    {process : Process}
    (orderly : process.Orderly)
    (events : List ProcessEvent) :
    (process.after reserve events).Orderly :=
  Machine.invariant Orderly (fun _ event before => before.step reserve event)
    orderly events

/-- When the loop has ended, nothing is executed and nothing changes. -/
theorem Orderly.after_ended
    {process : Process}
    (orderly : process.Orderly)
    (ended : process.ending ≠ none)
    (events : List ProcessEvent) :
    process.Outlives (process.after reserve events) ∧
      process.executed reserve events = [] := by
  induction events generalizing process with
  | nil =>
      exact ⟨⟨rfl, rfl, rfl, rfl, rfl⟩, rfl⟩
  | cons event later inductionHypothesis =>
      have first : process.Outlives (process.step reserve event) :=
        orderly.step_ended ended event
      obtain ⟨rest, silent⟩ :=
        inductionHypothesis (orderly.step reserve event)
          (by rw [first.ending]; exact ended)
      refine ⟨⟨rest.ending.trans first.ending,
        rest.sessions.trans first.sessions,
        rest.history.trans first.history, rest.aof.trans first.aof,
        rest.refused.trans first.refused⟩, ?_⟩
      have nothing : process.executes reserve event = [] := by
        cases event with
        | complete id completion =>
            exact if_neg fun running =>
              ended (Option.isNone_iff_eq_none.mp running)
        | signal | sweep | acceptDone | pollDone | runPosted =>
            rfl
      change process.executes reserve event ++ _ = []
      rw [nothing]
      exact silent

variable {around : Surroundings} {cfg : Config}

/-- The flag is set if a signal has arrived. -/
theorem lastSignal_after
    (events : List ProcessEvent) :
    ((launch reserve around cfg).after reserve events).lastSignal ≠ 0 ↔
      ∃ signal, .signal signal ∈ events := by
  induction events using List.reverseRecOn with
  | nil =>
      exact iff_of_false (fun set => set rfl)
        fun ⟨_, member⟩ => absurd member List.not_mem_nil
  | append_singleton events event inductionHypothesis =>
      rw [after_concat]
      rcases ((orderly_launch around cfg).after events).lastSignal_step
          event with
        ⟨signal, rfl, set⟩ | ⟨other, same⟩
      · refine iff_of_true ?_ ⟨signal, List.mem_append_right _ (.head _)⟩
        rw [set]
        cases signal <;> decide
      · rw [same, inductionHypothesis]
        simp only [List.mem_append, List.mem_singleton]
        constructor
        · rintro ⟨signal, member⟩
          exact ⟨signal, Or.inl member⟩
        · rintro ⟨signal, member | last⟩
          · exact ⟨signal, member⟩
          · exact absurd last.symm (other signal)

/-- While the loop runs, the timer is waited for if no wait has failed. -/
theorem polls_after
    {events : List ProcessEvent}
    (runs :
      ((launch reserve around cfg).after reserve events).ending = none) :
    ((launch reserve around cfg).after reserve events).polls = 1 ↔
      .pollDone .failed ∉ events := by
  induction events using List.reverseRecOn with
  | nil =>
      exact iff_of_true rfl List.not_mem_nil
  | append_singleton events event inductionHypothesis =>
      rw [after_concat] at runs ⊢
      obtain ⟨ran, waits⟩ :=
        ((orderly_launch around cfg).after events).polls_step event runs
      refine waits.trans ?_
      rw [inductionHypothesis ran, List.mem_append, List.mem_singleton,
        not_or]
      exact and_congr_right fun _ => ne_comm

/-- An ending is final. -/
theorem ending_append
    {before : List ProcessEvent}
    {how : LoopEnd}
    (ended :
      ((launch reserve around cfg).after reserve before).ending = some how)
    (later : List ProcessEvent) :
    ((launch reserve around cfg).after reserve
      (before ++ later)).ending = some how := by
  have halted :
      ((launch reserve around cfg).after reserve before).ending ≠ none := by
    rw [ended]
    exact Option.some_ne_none _
  rw [after_append]
  exact (((orderly_launch around cfg).after before).after_ended halted
    later).1.ending.trans ended

/-- The event by which the loop has ended. -/
theorem exists_cause
    {events : List ProcessEvent}
    {how : LoopEnd}
    (ended :
      ((launch reserve around cfg).after reserve events).ending =
        some how) :
    ∃ before event later,
      events = before ++ event :: later ∧
        ((launch reserve around cfg).after reserve before).ending = none ∧
        ((launch reserve around cfg).after reserve before).Causes event
          how := by
  have fresh : (launch reserve around cfg).ending ≠ some how :=
    fun impossible => absurd impossible.symm (Option.some_ne_none _)
  obtain ⟨before, event, later, split, still, ends⟩ :=
    Machine.exists_turning_point (fun one : Process => one.ending = some how)
      fresh ended
  refine ⟨before, event, later, split, ?_⟩
  change ((launch reserve around cfg).after reserve
    (before ++ [event])).ending = some how at ends
  rw [after_concat] at ends
  exact ((orderly_launch around cfg).after before).ends_by still ends

end Runs

section Readiness

variable {reserve : Reserve}

/-- A read of a server that is ready dispatches its commands while it is. -/
theorem ready_handleData
    (connection : Connection)
    {server : Server}
    (ready : server.backend.stats.ready = true)
    (clock : Nat → TimePoint)
    (chunk : Bytes) :
    ∀ dispatch ∈
        (connection.handleData reserve clock server chunk).dispatched,
      dispatch.backend.stats.ready = true := by
  refine
    (Connection.handleData_records reserve clock
      (fun turn =>
        turn.server.backend.stats.ready = true ∧
          ∀ dispatch ∈ turn.dispatched,
            dispatch.backend.stats.ready = true)
      ?_ ?_ ⟨ready, fun _ member => absurd member List.not_mem_nil⟩
      chunk).2
  · rintro turn value next recorded - - ⟨flag, found⟩
    cases recorded with
    | protested _ same _ dispatched | identified _ _ _ same _ dispatched
    | refused _ _ _ _ same _ dispatched
    | subscribed _ _ _ _ _ _ same _ dispatched =>
        rw [same, dispatched]
        exact ⟨flag, found⟩
    | executed cmd now logged _ _ _ _ _ logs same _ dispatched =>
        have still : logged.backend.stats.ready = true := by
          rw [Server.backend_of_logWrite logs]
          exact flag
        rw [same, dispatched]
        constructor
        · change (logged.backend.answer now cmd).2.stats.ready = true
          rw [Backend.answer_stats]
          exact still
        · exact List.forall_mem_append.mpr
            ⟨found, List.forall_mem_singleton.mpr still⟩
  · intro turn next same holds
    rw [same.server, same.dispatched]
    exact holds

/-- Whatever a process executes finds the server ready. -/
theorem Orderly.ready_executes
    {process : Process}
    (orderly : process.Orderly)
    (event : ProcessEvent) :
    ∀ dispatch ∈ process.executes reserve event,
      dispatch.backend.stats.ready = true := by
  intro dispatch member
  cases event with
  | complete id completion =>
      simp only [executes] at member
      split at member
      · rename_i running
        obtain ⟨-, -, ready, -⟩ :=
          orderly.running (Option.isNone_iff_eq_none.mp running)
        simp only [EventLoop.executes] at member
        split at member
        · exact absurd member List.not_mem_nil
        · cases completion with
          | readDone clock chunk =>
              simp only [Session.executes] at member
              split at member
              · exact absurd member List.not_mem_nil
              · exact ready_handleData _ ready clock chunk dispatch member
          | readFailed | writeDone | writeFailed | waitExpired
          | waitAborted =>
              exact absurd member List.not_mem_nil
      · exact absurd member List.not_mem_nil
  | signal | sweep | acceptDone | pollDone | runPosted =>
      exact absurd member List.not_mem_nil

/-- The same over a whole run. -/
theorem Orderly.ready_executed
    {process : Process}
    (orderly : process.Orderly)
    (events : List ProcessEvent) :
    ∀ dispatch ∈ process.executed reserve events,
      dispatch.backend.stats.ready = true :=
  Machine.traced Orderly (fun _ event before => before.step reserve event)
    (fun _ (dispatches : List Dispatch) _ =>
      ∀ dispatch ∈ dispatches, dispatch.backend.stats.ready = true)
    (fun _ _ member => absurd member List.not_mem_nil)
    (fun first second => List.forall_mem_append.mpr ⟨first, second⟩)
    (fun _ event before => before.ready_executes event)
    orderly events

end Readiness

/--
The loop of a server that `main` has started stops exactly if the poll timer
elapses behind a signal, before any of its waits has failed; it is left by an
exception exactly if a client that is gone already would be admitted.  After
that nothing is executed, answered, logged or accepted.
-/
theorem ending_iff
    (reserve : Reserve)
    (around : Surroundings)
    (cfg : Config)
    (events : List ProcessEvent) :
    let process := launch reserve around cfg
    let now := process.after reserve events
    (now.ending = some .stopped ↔
      ∃ before later,
        events = before ++ .pollDone .elapsed :: later ∧
          (∃ signal, .signal signal ∈ before) ∧
          .pollDone .failed ∉ before ∧
          (process.after reserve before).ending ≠ some .threw) ∧
    (now.ending = some .threw ↔
      ∃ before id later,
        events = before ++ .acceptDone (.socket id false) :: later ∧
          (process.after reserve before).ending = none ∧
          id ∉ (process.after reserve before).loop.sessions ∧
          (process.after reserve before).isFull = false) ∧
    (now.ending ≠ none →
      ∀ more,
        now.Outlives (now.after reserve more) ∧
          now.executed reserve more = []) := by
  intro process now
  have orderly : ∀ past, (process.after reserve past).Orderly :=
    (orderly_launch around cfg).after
  refine ⟨⟨fun ended => ?_, ?_⟩, ⟨fun ended => ?_, ?_⟩,
    (orderly events).after_ended⟩
  · obtain ⟨before, _, later, split, running, rfl, waiting, set⟩ :=
      exists_cause ended
    refine ⟨before, later, split, (lastSignal_after before).mp set,
      (polls_after running).mp waiting, ?_⟩
    rw [running]
    exact fun impossible => absurd impossible.symm (Option.some_ne_none _)
  · rintro ⟨before, later, split, signalled, waits, notThrown⟩
    have stopped :
        (process.after reserve (before ++ [.pollDone .elapsed])).ending =
          some .stopped := by
      cases ended : (process.after reserve before).ending with
      | none =>
          rw [after_concat]
          exact (orderly before).step_elapsed ended
            ((polls_after ended).mpr waits)
            ((lastSignal_after before).mpr signalled)
      | some how =>
          cases how with
          | stopped =>
              exact ending_append ended _
          | threw =>
              exact absurd ended notThrown
    rw [List.append_cons] at split
    change (process.after reserve events).ending = some .stopped
    rw [split]
    exact ending_append stopped later
  · obtain ⟨before, _, later, split, running, id, rfl, free, room⟩ :=
      exists_cause ended
    exact ⟨before, id, later, split, running, free, room⟩
  · rintro ⟨before, id, later, split, running, free, room⟩
    have threw :
        (process.after reserve
          (before ++ [.acceptDone (.socket id false)])).ending =
          some .threw := by
      rw [after_concat]
      exact (orderly before).step_lost running free room
    rw [List.append_cons] at split
    change (process.after reserve events).ending = some .threw
    rw [split]
    exact ending_append threw later

end Process

end Vortek
