import Vortek.AofReplay
import Vortek.ServerLifecycle

namespace Vortek

open DecimalText EmittingMachine

/-!
# One command after the other

However many clients there are, and however their bytes arrive, a process
executes commands one after the other: each finds the store as the one before it
has left it, up to passes of the expiry thread, and the number of commands that
have returned before it.  What is logged is the wire form of the write commands
among them, in the same order.
-/

/-- The store that a dispatched command leaves. -/
def Dispatch.left (dispatch : Dispatch) : KvStore :=
  (dispatch.backend.dispatch dispatch.now dispatch.cmd).2.store

/-- What the client is answered. -/
def Dispatch.answer (dispatch : Dispatch) : Command × List RespValue :=
  (dispatch.cmd, [dispatch.reply])

/-- The commands that are logged. -/
def loggedCommands (dispatches : List Dispatch) : List Command :=
  (dispatches.map Dispatch.cmd).filter fun cmd =>
    AofPersistence.isWriteCommand cmd.name

/-- Only passes of the expiry thread lie between the two stores. -/
def KvStore.SweptTo (first last : KvStore) : Prop :=
  ∃ times : List TimePoint, last = times.foldl KvStore.sweep first

/-- Each command finds what the one before it has left, or less by sweeps. -/
def Sequential : KvStore → List Dispatch → KvStore → Prop
  | first, [], last => first.SweptTo last
  | first, dispatch :: later, last =>
      first.SweptTo dispatch.backend.store ∧
        Sequential dispatch.left later last

/-- Each command finds how many have returned before it. -/
def Tallies : Int64 → List Dispatch → Int64 → Prop
  | first, [], last => last = first
  | first, dispatch :: later, last =>
      dispatch.backend.stats.totalCommands = first ∧
        Tallies (first + toInt64 (if dispatch.returned then 1 else 0)) later
          last

section Chains

variable {first middle last : KvStore} {dispatches more : List Dispatch}

theorem KvStore.SweptTo.refl
    (store : KvStore) :
    store.SweptTo store :=
  ⟨[], rfl⟩

theorem KvStore.SweptTo.trans
    (earlier : first.SweptTo middle)
    (later : middle.SweptTo last) :
    first.SweptTo last := by
  obtain ⟨times, rfl⟩ := earlier
  obtain ⟨others, rfl⟩ := later
  exact ⟨times ++ others, List.foldl_append.symm⟩

/-- Without deadlines there is nothing to sweep. -/
theorem KvStore.SweptTo.eq_of_noDeadlines
    (swept : first.SweptTo last)
    (noDeadlines : first.NoDeadlines) :
    last = first := by
  obtain ⟨times, rfl⟩ := swept
  induction times with
  | nil =>
      rfl
  | cons time later inductionHypothesis =>
      rw [List.foldl_cons, noDeadlines.sweep_eq]
      exact inductionHypothesis

theorem KvStore.SweptTo.sequential
    (swept : first.SweptTo middle)
    (sequential : Sequential middle dispatches last) :
    Sequential first dispatches last := by
  cases dispatches with
  | nil =>
      exact swept.trans sequential
  | cons dispatch later =>
      exact ⟨swept.trans sequential.1, sequential.2⟩

theorem Sequential.append
    (earlier : Sequential first dispatches middle)
    (later : Sequential middle more last) :
    Sequential first (dispatches ++ more) last := by
  induction dispatches generalizing first with
  | nil =>
      exact KvStore.SweptTo.sequential earlier later
  | cons dispatch rest inductionHypothesis =>
      exact ⟨earlier.1, inductionHypothesis earlier.2⟩

theorem sequential_singleton
    (dispatch : Dispatch) :
    Sequential dispatch.backend.store [dispatch] dispatch.left :=
  ⟨.refl _, .refl _⟩

theorem Tallies.append
    {first middle last : Int64}
    (earlier : Tallies first dispatches middle)
    (later : Tallies middle more last) :
    Tallies first (dispatches ++ more) last := by
  induction dispatches generalizing first with
  | nil =>
      have same : middle = first := earlier
      exact same ▸ later
  | cons dispatch rest inductionHypothesis =>
      exact ⟨earlier.1, inductionHypothesis earlier.2⟩

theorem Tallies.total
    {first last : Int64}
    (counted : Tallies first dispatches last) :
    last = first + toInt64 (dispatches.countP Dispatch.returned) := by
  induction dispatches generalizing first with
  | nil =>
      exact Eq.trans counted (Int64.add_zero first).symm
  | cons one rest inductionHypothesis =>
      rw [inductionHypothesis counted.2, Int64.add_assoc, ← toInt64_add,
        Nat.add_comm, List.countP_cons]

/-- A command finds what those before it have left. -/
theorem Tallies.before
    {first last : Int64}
    {dispatch : Dispatch}
    (counted : Tallies first (dispatches ++ dispatch :: more) last) :
    Tallies first dispatches dispatch.backend.stats.totalCommands := by
  induction dispatches generalizing first with
  | nil =>
      exact counted.1
  | cons one rest inductionHypothesis =>
      exact ⟨counted.1, inductionHypothesis counted.2⟩

theorem loggedCommands_append
    (dispatches more : List Dispatch) :
    loggedCommands (dispatches ++ more) =
      loggedCommands dispatches ++ loggedCommands more := by
  simp only [loggedCommands, List.map_append, List.filter_append]

end Chains

/-- Commands have led from one shared state to another. -/
structure Server.Executes
    (reserve : Reserve)
    (server : Server)
    (dispatches : List Dispatch)
    (next : Server) :
    Prop where
  store :
    Sequential server.backend.store dispatches next.backend.store
  aof :
    next.aof =
      server.aof.map fun aof =>
        ⟨aof.file ++ AofPersistence.wire (loggedCommands dispatches)⟩
  loggable :
    ∀ dispatch ∈ dispatches, AofPersistence.Loggable reserve dispatch.cmd
  counted :
    Tallies server.backend.stats.totalCommands dispatches
      next.backend.stats.totalCommands

section Executing

variable {reserve : Reserve} {clock : Nat → TimePoint}
variable {server next last : Server} {dispatches more : List Dispatch}

/-- Nothing was executed. -/
theorem Server.executes_nil
    (store : server.backend.store.SweptTo next.backend.store)
    (aof : next.aof = server.aof)
    (total :
      next.backend.stats.totalCommands =
        server.backend.stats.totalCommands) :
    server.Executes reserve [] next where
  store := store
  aof := by
    rw [aof]
    cases server.aof with
    | none =>
        rfl
    | some found =>
        simp [loggedCommands]
  loggable := fun _ member => absurd member List.not_mem_nil
  counted := total

theorem Server.Executes.trans
    (first : server.Executes reserve dispatches next)
    (second : next.Executes reserve more last) :
    server.Executes reserve (dispatches ++ more) last where
  store := first.store.append second.store
  aof := by
    rw [second.aof, first.aof, loggedCommands_append,
      AofPersistence.wire_append, Option.map_map]
    congr 1
    funext aof
    simp only [Function.comp_apply, List.append_assoc]
  loggable := List.forall_mem_append.mpr ⟨first.loggable, second.loggable⟩
  counted := first.counted.append second.counted

/-- One command is logged and dispatched. -/
theorem Server.executes_dispatch
    {cmd : Command}
    {logged : Server}
    (loggable : AofPersistence.Loggable reserve cmd)
    (logs : server.logWrite reserve cmd = .ok logged)
    (now : TimePoint) :
    server.Executes reserve [⟨now, logged.backend, cmd⟩]
      (logged.dispatch now cmd).2 where
  store := by
    have kept : logged.backend = server.backend :=
      Server.backend_of_logWrite logs
    have left :
        (logged.dispatch now cmd).2.backend.store =
          (Dispatch.mk now logged.backend cmd).left :=
      logged.backend.answer_store now cmd
    rw [left, ← kept]
    exact sequential_singleton _
  aof := by
    rw [server.logWrite_of_loggable loggable] at logs
    cases logs
    change server.aof.map _ = _
    congr 1
    funext aof
    cases write : AofPersistence.isWriteCommand cmd.name with
    | true =>
        simp [loggedCommands, write]
    | false =>
        simp [loggedCommands, write]
  loggable := List.forall_mem_singleton.mpr loggable
  counted := by
    rw [← Server.backend_of_logWrite logs]
    exact ⟨rfl, congrArg ServerStats.totalCommands
      (logged.backend.answer_stats now cmd)⟩

/-- A read executes the commands that it dispatches. -/
theorem Connection.handleData_executes
    (connection : Connection)
    (server : Server)
    (chunk : Bytes) :
    let turn := connection.handleData reserve clock server chunk
    server.Executes reserve turn.dispatched turn.server := by
  refine handleData_records reserve clock
    (fun turn => server.Executes reserve turn.dispatched turn.server)
    ?_ ?_ (Server.executes_nil (.refl _) rfl rfl) chunk
  · intro turn value next recorded _ _ executes
    cases recorded with
    | protested _ same _ dispatched | identified _ _ _ same _ dispatched
    | refused _ _ _ _ same _ dispatched =>
        rw [same, dispatched]
        exact executes
    | subscribed _ _ _ _ _ _ same _ dispatched =>
        rw [same, dispatched]
        exact ⟨executes.store, executes.aof, executes.loggable,
          executes.counted⟩
    | executed cmd now logged _ loggable _ _ _ logs same _ dispatched =>
        rw [same, dispatched]
        exact executes.trans (Server.executes_dispatch loggable logs now)
  · intro turn next same executes
    rw [same.server, same.dispatched]
    exact executes

end Executing

section Looping

variable {reserve : Reserve}

/-- Only the count of clients and the subscriptions change. -/
theorem EventLoop.release_store
    (loop : EventLoop)
    (id : Nat) :
    (loop.release id).server.backend.store = loop.server.backend.store ∧
      (loop.release id).server.aof = loop.server.aof ∧
      (loop.release id).server.backend.stats.totalCommands =
        loop.server.backend.stats.totalCommands := by
  rcases loop.release_cases id with ⟨same, -⟩ | ⟨session, -, -, same⟩
  · rw [same]
    exact ⟨rfl, rfl, rfl⟩
  · rw [same]
    exact ⟨rfl, rfl, rfl⟩

theorem Session.serverAfter_executes
    (session : Session)
    (server : Server)
    (completion : Completion) :
    server.Executes reserve (session.executes reserve server completion)
      (session.serverAfter reserve server completion) := by
  cases completion with
  | readDone clock chunk =>
      simp only [executes, serverAfter]
      split
      · exact Server.executes_nil (.refl _) rfl rfl
      · exact session.beginData.connection.handleData_executes server chunk
  | readFailed | writeDone | writeFailed | waitExpired | waitAborted =>
      exact Server.executes_nil (.refl _) rfl rfl

/-- A task of the event loop executes its commands. -/
theorem EventLoop.step_executes
    (config : ServerConfig)
    (loop : EventLoop)
    (event : LoopEvent) :
    loop.server.Executes reserve (loop.executes reserve event)
      (loop.step config reserve event).server := by
  cases event with
  | accept id =>
      simp only [executes, step, accept]
      split
      · exact Server.executes_nil (.refl _) rfl rfl
      · split
        · exact Server.executes_nil (.refl _) rfl rfl
        · exact Server.executes_nil (.refl _) rfl rfl
  | complete id completion =>
      cases found : loop.sessions.lookup id with
      | none =>
          simp only [executes, step, found]
          exact Server.executes_nil (.refl _) rfl rfl
      | some session =>
          simp only [executes, step, found]
          obtain ⟨store, aof, total⟩ :=
            (loop.handle reserve id session completion).release_store id
          have executed :
              loop.server.Executes reserve
                (session.executes reserve loop.server completion)
                (loop.handle reserve id session completion).server :=
            session.serverAfter_executes loop.server completion
          exact ⟨by rw [store]; exact executed.store,
            aof.trans executed.aof, executed.loggable,
            by rw [total]; exact executed.counted⟩
  | runPosted =>
      simp only [executes, step]
      split
      · exact Server.executes_nil (.refl _) rfl rfl
      · split
        · exact Server.executes_nil (.refl _) rfl rfl
        · obtain ⟨store, aof, total⟩ :=
            (loop.deliver _ _ _).release_store _
          refine Server.executes_nil ?_ aof total
          rw [store]
          exact .refl _

/-- Whatever happens to a process executes the commands that it emits. -/
theorem Process.Orderly.step_executes
    {process : Process}
    (orderly : process.Orderly)
    (event : ProcessEvent) :
    process.loop.server.Executes reserve (process.executes reserve event)
      (process.step reserve event).loop.server := by
  obtain ⟨-, change⟩ := orderly.step_loopChange reserve event
  generalize process.executes reserve event = dispatches at change ⊢
  generalize (process.step reserve event).loop = next at change ⊢
  cases change with
  | kept | closed | admitted =>
      exact Server.executes_nil (.refl _) rfl rfl
  | swept now =>
      exact Server.executes_nil ⟨[now], rfl⟩ rfl rfl
  | ran event =>
      exact process.loop.step_executes process.config event

/-- A run of a process executes the commands that it emits. -/
theorem Process.Orderly.after_executes
    {process : Process}
    (orderly : process.Orderly)
    (events : List ProcessEvent) :
    process.loop.server.Executes reserve (process.executed reserve events)
      (process.after reserve events).loop.server :=
  Machine.traced Orderly (fun _ event before => before.step reserve event)
    (fun first dispatches last =>
      first.loop.server.Executes reserve dispatches last.loop.server)
    (fun one => Server.executes_nil (.refl one.loop.server.backend.store) rfl
      rfl)
    (fun first second => first.trans second)
    (fun _ event before => before.step_executes event)
    orderly events

/-- No command has returned before the server starts. -/
theorem Process.totalCommands_launch
    (around : Surroundings)
    (cfg : Config) :
    (launch reserve around cfg).loop.server.backend.stats.totalCommands =
      0 :=
  congrArg ServerStats.totalCommands (cfg.prepare_frame reserve around).2.1

end Looping

/-- METRICS shows the statistics that it finds. -/
theorem Dispatch.reply_metrics
    {dispatch : Dispatch}
    (asks : dispatch.cmd = ⟨ascii "METRICS", []⟩) :
    ∃ head tail,
      dispatch.reply =
        .bulkString
          (head ++
            metric "vortek_total_commands_processed"
              (stdToString dispatch.backend.stats.totalCommands) ++
            tail) := by
  obtain ⟨now, backend, cmd⟩ := dispatch
  subst asks
  have found :
      ∀ withBroker,
        (Dispatcher.makeDefault withBroker).handlers.lookup
            (ascii "METRICS") =
          some cmdMetrics := by
    intro withBroker
    cases withBroker <;> rfl
  have shown :
      ∃ uptime clients rate keys memory ready,
        (mk now backend ⟨ascii "METRICS", []⟩).reply =
          .bulkString
            (uptime ++ clients ++
              metric "vortek_total_commands_processed"
                (stdToString backend.stats.totalCommands) ++
              rate ++ keys ++ memory ++ ready) := by
    simp only [reply, outcome, Backend.dispatch, Dispatcher.dispatch, found,
      cmdMetrics]
    exact ⟨_, _, _, _, _, _, rfl⟩
  obtain ⟨uptime, clients, rate, keys, memory, ready, shown⟩ := shown
  refine ⟨uptime ++ clients, rate ++ (keys ++ (memory ++ ready)), ?_⟩
  rw [shown]
  simp only [List.append_assoc]

/--
Every command that a server executes finds the number of commands that have
returned before it, whoever sent them, and METRICS reports this number.
-/
theorem Process.reports_total_commands
    (reserve : Reserve)
    (around : Surroundings)
    (cfg : Config)
    (events : List ProcessEvent) :
    let process := launch reserve around cfg
    (process.after reserve events).loop.server.backend.stats.totalCommands =
        toInt64
          ((process.executed reserve events).countP Dispatch.returned) ∧
      ∀ before dispatch later,
        process.executed reserve events = before ++ dispatch :: later →
        dispatch.backend.stats.totalCommands =
            toInt64 (before.countP Dispatch.returned) ∧
          (dispatch.cmd = ⟨ascii "METRICS", []⟩ →
            ∃ head tail,
              dispatch.reply =
                .bulkString
                  (head ++
                    metric "vortek_total_commands_processed"
                      (stdToString
                        (toInt64 (before.countP Dispatch.returned))) ++
                    tail)) := by
  intro process
  have executes :
      process.loop.server.Executes reserve (process.executed reserve events)
        (process.after reserve events).loop.server :=
    (orderly_launch around cfg).after_executes events
  have counted := executes.counted
  rw [totalCommands_launch] at counted
  constructor
  · rw [counted.total, Int64.zero_add]
  · intro before dispatch later split
    have found :
        dispatch.backend.stats.totalCommands =
          toInt64 (before.countP Dispatch.returned) := by
      rw [split] at counted
      rw [counted.before.total, Int64.zero_add]
    refine ⟨found, fun asks => ?_⟩
    rw [← found]
    exact dispatch.reply_metrics asks

end Vortek
