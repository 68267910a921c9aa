import Vortek.Configuration
import Vortek.EmittingMachine

namespace Vortek

open EmittingMachine

/-!
# The process

`main.cpp` and `server.cpp` around the event loop.  `Process.main` reads the
settings, replays the append-only file and calls `Server::run`.  From then on
the process reacts to signals, to the completion of the operations that the
server itself has started (the accept and the wait of its poll timer), to the
completions of its connections, to posted deliveries and to the passes of the
expiry thread.

`stop` is called by the poll of the signal flag only.  It cancels what is
outstanding and stops the event loop, so that no handler runs behind it.  An
exception in a handler leaves `io_context::run` and `main`: the address of a
client that is gone already cannot be logged.
-/

/-- The signals that the server has a handler for. -/
inductive Signal where
  | sigint
  | sigterm
  deriving DecidableEq, Repr

/-- The number of a signal. -/
def Signal.number : Signal → Nat
  | .sigint => 2
  | .sigterm => 15

/-- How `io_context::run` came back. -/
inductive LoopEnd where
  | stopped
  | threw
  deriving DecidableEq, Repr

/--
A running server.  `accepts` and `polls` are the operations of the acceptor and
of the poll timer that have not called back; `refused` holds what was written to
clients that were not admitted.
-/
structure Process where
  config : ServerConfig
  loop : EventLoop
  accepts : Nat
  polls : Nat
  acceptorOpen : Bool
  stopping : Bool
  ending : Option LoopEnd
  lastSignal : Nat
  refused : List Bytes

/-- What the handler of an accept is called with. -/
inductive AcceptResult where
  | socket (id : Nat) (connected : Bool)
  | aborted
  | failed

/-- What the handler of the poll timer is called with. -/
inductive PollResult where
  | elapsed
  | aborted
  | failed

/-- Something that happens to a process. -/
inductive ProcessEvent where
  | signal (signal : Signal)
  | sweep (now : TimePoint)
  | acceptDone (result : AcceptResult)
  | pollDone (result : PollResult)
  | complete (id : Nat) (completion : Completion)
  | runPosted

namespace EventLoop

/-- Replace the state behind the handlers. -/
def setBackend (loop : EventLoop) (backend : Backend) : EventLoop :=
  { loop with server := { loop.server with backend := backend } }

/-- `stats_->ready.store(…)`. -/
def setReady (loop : EventLoop) (ready : Bool) : EventLoop :=
  loop.setBackend
    { loop.server.backend with
      stats := { loop.server.backend.stats with ready := ready } }

/-- A pass of the expiry thread. -/
def sweep (loop : EventLoop) (now : TimePoint) : EventLoop :=
  loop.setBackend
    { loop.server.backend with
      store := loop.server.backend.store.sweep now }

end EventLoop

namespace Process

/-- The flag that READY reads. -/
def setReady (process : Process) (ready : Bool) : Process :=
  { process with loop := process.loop.setReady ready }

/-- `Server::do_accept`: start an accept. -/
def doAccept (process : Process) : Process :=
  { process with accepts := process.accepts + 1 }

/-- `Server::stop`. -/
def stop (process : Process) : Process :=
  if process.stopping then
    process
  else
    { process.setReady false with
      stopping := true
      acceptorOpen := false
      ending := some .stopped }

/-- `Server::poll_signal_flag`. -/
def pollSignalFlag (process : Process) : Process :=
  if process.stopping then
    process
  else if process.lastSignal ≠ 0 then
    process.stop
  else
    { process with polls := process.polls + 1 }

/-- `Server::setup_signal_handlers`. -/
def setupSignalHandlers (process : Process) : Process :=
  { process with lastSignal := 0 }.pollSignalFlag

/-- `Server::run`, up to the event loop. -/
def begin (process : Process) : Process :=
  ((process.setReady true).setupSignalHandlers).doAccept

/-- The limit on clients is reached. -/
def isFull (process : Process) : Bool :=
  toInt64 process.config.maxClients ≤
    process.loop.server.backend.stats.connectedClients

/-- The handler of an accept. -/
def handleAccept (process : Process) : AcceptResult → Process
  | .socket id connected =>
      if process.isFull then
        { process with
          refused := process.refused ++
            [(err "ERR max number of clients reached").serialize] }.doAccept
      else if connected then
        { process with
          loop := process.loop.addClient process.config id }.doAccept
      else
        -- `remote_endpoint` throws.
        { process with ending := some .threw }
  | .aborted => process
  | .failed =>
      if process.stopping then process else process.doAccept

/-- The handler of the poll timer. -/
def handlePoll (process : Process) : PollResult → Process
  | .elapsed =>
      if process.stopping then process else process.pollSignalFlag
  | .aborted => process
  | .failed => process

/--
What can happen.  No handler runs when the loop has ended; an operation calls
back if it is outstanding, as aborted only if it was cancelled, and with an
address that is not in use.
-/
def enabled (process : Process) : ProcessEvent → Bool
  | .signal _ => true
  | .sweep _ => true
  | .acceptDone result =>
      process.ending.isNone && process.accepts ≠ 0 &&
        match result with
        | .socket id _ => (process.loop.sessions.lookup id).isNone
        | .aborted => !process.acceptorOpen
        | .failed => true
  | .pollDone result =>
      process.ending.isNone && process.polls ≠ 0 &&
        match result with
        | .elapsed => true
        | .aborted => process.stopping || 1 < process.polls
        | .failed => true
  | .complete _ _ => process.ending.isNone
  | .runPosted => process.ending.isNone

/-- Let something happen that can happen. -/
def perform
    (reserve : Reserve)
    (process : Process) :
    ProcessEvent → Process
  | .signal signal => { process with lastSignal := signal.number }
  | .sweep now => { process with loop := process.loop.sweep now }
  | .acceptDone result =>
      { process with accepts := process.accepts - 1 }.handleAccept result
  | .pollDone result =>
      { process with polls := process.polls - 1 }.handlePoll result
  | .complete id completion =>
      { process with
        loop :=
          process.loop.step process.config reserve
            (.complete id completion) }
  | .runPosted =>
      { process with
        loop := process.loop.step process.config reserve .runPosted }

/-- An event that cannot happen changes nothing. -/
def step
    (reserve : Reserve)
    (process : Process)
    (event : ProcessEvent) :
    Process :=
  if process.enabled event then process.perform reserve event else process

end Process

/-- The commands that a completion executes, with what each of them finds. -/
def Session.executes
    (reserve : Reserve)
    (session : Session)
    (server : Server) :
    Completion → List Dispatch
  | .readDone clock chunk =>
      if session.reads = 0 then
        []
      else
        (session.dataTurn reserve clock server chunk).dispatched
  | _ => []

/-- The commands that a task of the event loop executes. -/
def EventLoop.executes
    (reserve : Reserve)
    (loop : EventLoop) :
    LoopEvent → List Dispatch
  | .complete id completion =>
      match loop.sessions.lookup id with
      | none => []
      | some session => session.executes reserve loop.server completion
  | _ => []

namespace Process

/-- The commands that are executed when something happens. -/
def executes
    (reserve : Reserve)
    (process : Process) :
    ProcessEvent → List Dispatch
  | .complete id completion =>
      if process.ending.isNone then
        process.loop.executes reserve (.complete id completion)
      else
        []
  | _ => []

/-- The process as a machine that emits the commands it executes. -/
def machine (reserve : Reserve) :
    Machine Process ProcessEvent Dispatch where
  step := step reserve
  emit := executes reserve

/-- The process after some events. -/
def after
    (reserve : Reserve)
    (process : Process)
    (events : List ProcessEvent) :
    Process :=
  (machine reserve).run process events

/-- The commands executed while some events happen. -/
def executed
    (reserve : Reserve)
    (process : Process)
    (events : List ProcessEvent) :
    List Dispatch :=
  (machine reserve).emitted process events

theorem after_append
    (reserve : Reserve)
    (process : Process)
    (events more : List ProcessEvent) :
    process.after reserve (events ++ more) =
      (process.after reserve events).after reserve more :=
  Machine.run_append events more

theorem after_concat
    (reserve : Reserve)
    (process : Process)
    (events : List ProcessEvent)
    (event : ProcessEvent) :
    process.after reserve (events ++ [event]) =
      (process.after reserve events).step reserve event :=
  Machine.run_concat events event

end Process

/--
What `main` finds: configuration files, the append-only file by its path, if it
can be opened, the readings of the clock at the start and during replay, and the
ports that an acceptor can be bound to.
-/
structure Surroundings where
  parseFile : ParseFile
  openAof : Bytes → Option Bytes
  startTime : TimePoint
  replayClock : Nat → TimePoint
  canBind : UInt16 → Bool

/-- The objects that `main` makes before it opens the file. -/
def Config.freshBackend (cfg : Config) (startTime : TimePoint) : Backend where
  store := KvStore.empty
  stats := ⟨startTime, 0, 0, false, cfg.port, cfg.aofEnabled⟩
  broker := some PubSubBroker.empty
  posted := []

/-- The state that `main` hands to the server, behind the replay. -/
def Config.prepare
    (reserve : Reserve)
    (around : Surroundings)
    (cfg : Config) :
    Server :=
  let backend := cfg.freshBackend around.startTime
  if cfg.aofEnabled then
    match around.openAof cfg.aofPath with
    | none => ⟨backend, none⟩
    | some contents =>
        let replayed :=
          (AofPersistence.mk contents).replay reserve around.replayClock
            backend
        ⟨replayed.backend, some replayed.aof⟩
  else
    ⟨backend, none⟩

namespace Process

/-- A server whose acceptor listens. -/
def listening (config : ServerConfig) (server : Server) : Process where
  config := config
  loop := EventLoop.start server
  accepts := 0
  polls := 0
  acceptorOpen := true
  stopping := false
  ending := none
  lastSignal := 0
  refused := []

/--
`Server::Server`.  The constructor of the acceptor throws if it cannot be bound
to the port.
-/
def create
    (around : Surroundings)
    (cfg : Config)
    (server : Server) :
    Option Process :=
  if around.canBind cfg.port then
    some (listening cfg.serverConfig server)
  else
    none

/-- `main` with settings that have been accepted and a port that is free. -/
def launch
    (reserve : Reserve)
    (around : Surroundings)
    (cfg : Config) :
    Process :=
  (listening cfg.serverConfig (cfg.prepare reserve around)).begin

/--
`main`, up to the event loop.  Nothing is started without settings, and the
exception of the acceptor leaves `main`.
-/
def main
    (reserve : Reserve)
    (around : Surroundings)
    (args : List Bytes) :
    Option Process :=
  match parseArgs around.parseFile args with
  | .returns cfg =>
      (create around cfg (cfg.prepare reserve around)).map begin
  | .exits => none
  | .throws _ => none

end Process

/-- A server is started if its acceptor can be bound. -/
theorem Process.map_begin_create
    {reserve : Reserve}
    {around : Surroundings}
    {cfg : Config}
    {process : Process} :
    (create around cfg (cfg.prepare reserve around)).map begin =
        some process ↔
      around.canBind cfg.port = true ∧
        process = launch reserve around cfg := by
  unfold create
  cases around.canBind cfg.port with
  | false =>
      constructor
      · intro started
        cases started
      · rintro ⟨free, -⟩
        cases free
  | true =>
      constructor
      · intro started
        exact ⟨rfl, (Option.some.inj started).symm⟩
      · rintro ⟨-, rfl⟩
        rfl

/-- A process logs if it is told to and the file can be opened. -/
theorem Process.isSome_aof_launch
    (reserve : Reserve)
    (around : Surroundings)
    (cfg : Config) :
    (launch reserve around cfg).loop.server.aof.isSome =
      (cfg.aofEnabled && (around.openAof cfg.aofPath).isSome) := by
  change (cfg.prepare reserve around).aof.isSome = _
  unfold Config.prepare
  cases cfg.aofEnabled with
  | false =>
      rfl
  | true =>
      cases around.openAof cfg.aofPath <;> rfl

section Starting

variable {reserve : Reserve}

/-- A command finds nobody to publish to in an empty broker. -/
theorem Backend.dispatch_posted_of_empty
    {backend : Backend}
    (nobody : backend.broker = some PubSubBroker.empty)
    (now : TimePoint)
    (cmd : Command) :
    (backend.dispatch now cmd).2.posted = backend.posted := by
  by_cases publishes : cmd.name = ascii "PUBLISH"
  · rcases dispatch_publish nobody publishes now with
      ⟨channel, message, -, outcome⟩ | ⟨message, outcome⟩
    · rw [outcome]
      exact List.append_nil _
    · rw [outcome]
  · exact dispatch_posted publishes now backend

/-- Commands of the file do not touch what is not in the store. -/
theorem AofPersistence.dispatchAll_frame
    {backend : Backend}
    (nobody : backend.broker = some PubSubBroker.empty)
    (clock : Nat → TimePoint)
    (count : Nat)
    (commands : List Command) :
    let after := dispatchAll clock count backend commands
    after.broker = some PubSubBroker.empty ∧
      after.stats = backend.stats ∧
      after.posted = backend.posted := by
  induction commands generalizing count backend with
  | nil =>
      exact ⟨nobody, rfl, rfl⟩
  | cons cmd later inductionHypothesis =>
      have frame := backend.dispatch_frame (clock count) cmd
      have posted := backend.dispatch_posted_of_empty nobody (clock count) cmd
      obtain ⟨broker, stats, still⟩ :=
        inductionHypothesis (frame.1.trans nobody) (count + 1)
      exact ⟨broker, stats.trans frame.2, still.trans posted⟩

/-- What `main` hands to the server apart from the store and the file. -/
theorem Config.prepare_frame
    (reserve : Reserve)
    (around : Surroundings)
    (cfg : Config) :
    let backend := (cfg.prepare reserve around).backend
    backend.broker = some PubSubBroker.empty ∧
      backend.stats = (cfg.freshBackend around.startTime).stats ∧
      backend.posted = [] := by
  unfold prepare
  dsimp only
  split
  · split
    · exact ⟨rfl, rfl, rfl⟩
    · rename_i contents _
      rw [AofPersistence.replay_eq _ _ rfl]
      exact AofPersistence.dispatchAll_frame rfl around.replayClock 0 _
  · exact ⟨rfl, rfl, rfl⟩

/-- The server starts without clients, subscriptions and deliveries. -/
theorem Config.fresh_prepare
    (reserve : Reserve)
    (around : Surroundings)
    (cfg : Config) :
    EventLoop.Fresh (cfg.prepare reserve around) := by
  obtain ⟨broker, stats, posted⟩ := cfg.prepare_frame reserve around
  exact ⟨broker, posted, by rw [stats]; rfl⟩

end Starting

end Vortek
