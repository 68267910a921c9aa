import Vortek.Authentication
import Vortek.SequentialExecution

namespace Vortek

open EmittingMachine

/-!
# What the history tells

A history alone tells who may use the server: those who have given the password
since they were accepted, or everyone if there is none.  Reading the history in
this way gives each answered command together with whether its client was
trusted at that moment (`Happening.exchanges`).  Clients that were not trusted
got the fixed refusal; what the others got, apart from AUTH and the
subscriptions, is what the commands came to that the server has executed, in the
order of execution.
-/

/-- A command, how it was answered, and whether its client was trusted. -/
structure Exchange where
  trusted : Bool
  cmd : Command
  replies : List RespValue

/-- The dispatcher was asked. -/
def Exchange.isServed (exchange : Exchange) : Bool :=
  exchange.trusted && exchange.cmd.name ≠ ascii "AUTH" &&
    !isPubSub exchange.cmd.name

/-- The command of an exchange with its replies. -/
def Exchange.answer (exchange : Exchange) : Command × List RespValue :=
  (exchange.cmd, exchange.replies)

/-- The answers to the served ones among some exchanges. -/
def servedAnswers (exchanges : List Exchange) :
    List (Command × List RespValue) :=
  (exchanges.filter Exchange.isServed).map Exchange.answer

theorem servedAnswers_append
    (exchanges more : List Exchange) :
    servedAnswers (exchanges ++ more) =
      servedAnswers exchanges ++ servedAnswers more := by
  simp only [servedAnswers, List.filter_append, List.map_append]

/-- The reply to a client that has not given the password. -/
def lockedReply (requirepass : Bytes) (cmd : Command) : RespValue :=
  if cmd = authCommand requirepass then
    .simpleString (ascii "OK")
  else
    refusal cmd

/-- A client that was not trusted got the reply that is due to it. -/
def Exchange.Guarded (requirepass : Bytes) (exchange : Exchange) : Prop :=
  exchange.trusted = false →
    exchange.replies = [lockedReply requirepass exchange.cmd]

namespace Happening

/-- Who is trusted behind a happening. -/
def trusts
    (requirepass : Bytes)
    (trusted : Finset Nat) :
    Happening → Finset Nat
  | .accepted id =>
      if requirepass = [] then insert id trusted else trusted.erase id
  | .answered id cmd _ =>
      if cmd = authCommand requirepass then insert id trusted else trusted

/-- The exchange that a happening records, if it is one. -/
def exchange (trusted : Finset Nat) : Happening → List Exchange
  | .accepted _ => []
  | .answered id cmd replies => [⟨id ∈ trusted, cmd, replies⟩]

/-- A reader of the history that keeps track of who is trusted. -/
def reader (requirepass : Bytes) :
    Machine (Finset Nat) Happening Exchange where
  step := trusts requirepass
  emit := exchange

/-- Who is trusted after a history. -/
def trusted (requirepass : Bytes) (history : List Happening) : Finset Nat :=
  (reader requirepass).run ∅ history

/-- The exchanges of a history. -/
def exchanges (requirepass : Bytes) (history : List Happening) :
    List Exchange :=
  (reader requirepass).emitted ∅ history

end Happening

/-- A turn agrees with what a reader makes of its answers. -/
structure Turn.Accounts
    (requirepass : Bytes)
    (trusted : Finset Nat)
    (id : Nat)
    (turn : Turn) :
    Prop where
  own : turn.connection.id = id
  secret : turn.connection.requirepass = requirepass
  unsecured : requirepass = [] → turn.connection.authenticated = true
  known :
    turn.connection.authenticated =
      decide
        (id ∈ (Happening.reader requirepass).run trusted turn.happenings)
  others :
    ∀ other,
      other ≠ id →
      (other ∈ (Happening.reader requirepass).run trusted turn.happenings ↔
        other ∈ trusted)
  serves :
    servedAnswers
        ((Happening.reader requirepass).emitted trusted turn.happenings) =
      turn.dispatched.map Dispatch.answer
  guarded :
    ∀ exchange ∈
        (Happening.reader requirepass).emitted trusted turn.happenings,
      exchange.Guarded requirepass

section Turns

variable {reserve : Reserve} {clock : Nat → TimePoint}
variable {requirepass : Bytes} {trusted : Finset Nat} {id : Nat}
variable {turn next : Turn}

/-- One more command has been answered. -/
theorem Turn.Accounts.extend
    (accounts : turn.Accounts requirepass trusted id)
    {cmd : Command}
    {replies : List RespValue}
    {dispatches : List Dispatch}
    (own : next.connection.id = turn.connection.id)
    (secret : next.connection.requirepass = turn.connection.requirepass)
    (answered : next.answered = turn.answered ++ [(cmd, replies)])
    (dispatched : next.dispatched = turn.dispatched ++ dispatches)
    (authenticated :
      next.connection.authenticated =
        (turn.connection.authenticated ||
          decide (cmd = authCommand requirepass)))
    (serves :
      servedAnswers [⟨turn.connection.authenticated, cmd, replies⟩] =
        dispatches.map Dispatch.answer)
    (guarded :
      (Exchange.mk turn.connection.authenticated cmd replies).Guarded
        requirepass) :
    next.Accounts requirepass trusted id := by
  have happened :
      next.happenings = turn.happenings ++ [.answered id cmd replies] := by
    rw [happenings, answered, own, accounts.own, List.map_append,
      ← accounts.own]
    rfl
  have reads :
      (Happening.reader requirepass).run trusted next.happenings =
        (Happening.answered id cmd replies).trusts requirepass
          ((Happening.reader requirepass).run trusted turn.happenings) := by
    rw [happened, Machine.run_concat]
    rfl
  have emits :
      (Happening.reader requirepass).emitted trusted next.happenings =
        (Happening.reader requirepass).emitted trusted turn.happenings ++
          [⟨turn.connection.authenticated, cmd, replies⟩] := by
    rw [happened, Machine.emitted_append, accounts.known]
    rfl
  refine ⟨own.trans accounts.own, secret.trans accounts.secret, ?_, ?_, ?_,
    ?_, ?_⟩
  · intro unsecured
    rw [authenticated, accounts.unsecured unsecured, Bool.true_or]
  · rw [authenticated, accounts.known, reads, Happening.trusts]
    split
    · rename_i unlocks
      simp [unlocks]
    · rename_i other
      simp [other]
  · intro other different
    rw [reads, Happening.trusts]
    split
    · rw [Finset.mem_insert, or_iff_right different]
      exact accounts.others other different
    · exact accounts.others other different
  · rw [emits, servedAnswers_append, accounts.serves, serves, dispatched,
      List.map_append]
  · rw [emits]
    exact List.forall_mem_append.mpr
      ⟨accounts.guarded, List.forall_mem_singleton.mpr guarded⟩

/-- AUTH unlocks the connection exactly if it gives the password. -/
theorem Connection.handleAuth_accounts
    {connection : Connection}
    {cmd : Command}
    (auth : cmd.name = ascii "AUTH")
    (unsecured :
      connection.requirepass = [] → connection.authenticated = true) :
    (connection.handleAuth cmd).2.authenticated =
        (connection.authenticated ||
          decide (cmd = authCommand connection.requirepass)) ∧
      (connection.authenticated = false →
        (connection.handleAuth cmd).1 =
          lockedReply connection.requirepass cmd) := by
  by_cases secured : connection.requirepass = []
  · have already := unsecured secured
    refine ⟨?_, fun locked => ?_⟩
    · rw [handleAuth_authenticated already, already, Bool.true_or]
    · rw [already] at locked
      cases locked
  · rw [handleAuth_eq secured auth, lockedReply]
    split
    · rename_i unlocks
      simp [unlocks]
    · rename_i other
      simp [other]

theorem Turn.Accounts.congr
    (accounts : turn.Accounts requirepass trusted id)
    (same : turn.SameRecords next) :
    next.Accounts requirepass trusted id := by
  have happened : next.happenings = turn.happenings := by
    rw [happenings, same.answered, same.id]
    rfl
  refine ⟨same.id.trans accounts.own,
    same.requirepass.trans accounts.secret, ?_, ?_, ?_, ?_, ?_⟩
  · rw [same.authenticated]
    exact accounts.unsecured
  · rw [same.authenticated, happened]
    exact accounts.known
  · rw [happened]
    exact accounts.others
  · rw [happened, same.dispatched]
    exact accounts.serves
  · rw [happened]
    exact accounts.guarded

theorem Turn.Accounts.recordStep
    {value : RespValue}
    (accounts : turn.Accounts requirepass trusted id)
    (recorded : turn.RecordStep reserve value next)
    (own : next.connection.id = turn.connection.id)
    (secret : next.connection.requirepass = turn.connection.requirepass) :
    next.Accounts requirepass trusted id := by
  have notAuth :
      ∀ cmd : Command,
        cmd.name ≠ ascii "AUTH" → cmd ≠ authCommand requirepass := by
    rintro cmd other rfl
    exact other rfl
  cases recorded with
  | protested _ server answered dispatched authenticated =>
      exact accounts.congr
        ⟨server, answered, dispatched, own, secret, authenticated⟩
  | identified cmd _ auth _ answered dispatched authenticated =>
      obtain ⟨unlocks, reply⟩ :=
        Connection.handleAuth_accounts auth fun unsecured =>
          accounts.unsecured (accounts.secret.symm.trans unsecured)
      rw [accounts.secret] at unlocks reply
      refine accounts.extend own secret answered
        (dispatched.trans (List.append_nil _).symm)
        (authenticated.trans unlocks) ?_ ?_
      · simp [servedAnswers, Exchange.isServed, auth]
      · intro locked
        exact congrArg (fun value => [value]) (reply locked)
  | refused cmd _ other locked _ answered dispatched authenticated =>
      refine accounts.extend own secret answered
        (dispatched.trans (List.append_nil _).symm) ?_ ?_ ?_
      · rw [authenticated, locked, decide_eq_false (notAuth cmd other)]
        rfl
      · simp [servedAnswers, Exchange.isServed, locked]
      · intro _
        rw [lockedReply, if_neg (notAuth cmd other), refusal, if_neg other]
  | subscribed cmd replies _ _ pubSub unlocked _ answered dispatched
      authenticated =>
      refine accounts.extend own secret answered
        (dispatched.trans (List.append_nil _).symm) ?_ ?_ ?_
      · rw [authenticated, unlocked, Bool.true_or]
      · simp [servedAnswers, Exchange.isServed, pubSub]
      · intro locked
        exact absurd (unlocked.symm.trans locked) Bool.noConfusion
  | executed cmd now logged _ _ other ordinary unlocked _ _ answered
      dispatched authenticated =>
      refine accounts.extend own secret answered dispatched ?_ ?_ ?_
      · rw [authenticated, unlocked, Bool.true_or]
      · simp [servedAnswers, Exchange.isServed, unlocked, other, ordinary,
          Exchange.answer, Dispatch.answer]
      · intro locked
        exact absurd (unlocked.symm.trans locked) Bool.noConfusion

/-- A read answers as the reader of the history expects. -/
theorem Connection.handleData_accounts
    {connection : Connection}
    {server : Server}
    (begun :
      (connection.begin server).Accounts requirepass trusted id)
    (chunk : Bytes) :
    (connection.handleData reserve clock server chunk).Accounts requirepass
      trusted id :=
  handleData_records reserve clock (Turn.Accounts requirepass trusted id)
    (fun _ _ _ recorded own secret accounts =>
      accounts.recordStep recorded own secret)
    (fun _ _ same accounts => accounts.congr same) begun chunk

end Turns

/-- Only a read that is outstanding executes commands. -/
theorem Session.executes_eq_nil
    {reserve : Reserve}
    {server : Server}
    {completion : Completion}
    (session : Session)
    (idle :
      ¬∃ clock chunk,
        completion = .readDone clock chunk ∧ session.reads ≠ 0) :
    session.executes reserve server completion = [] := by
  cases completion with
  | readDone clock chunk =>
      have none : session.reads = 0 := by
        by_contra outstanding
        exact idle ⟨clock, chunk, rfl, outstanding⟩
      exact if_pos none
  | readFailed | writeDone | writeFailed | waitExpired | waitAborted =>
      rfl

/-- A connection agrees with who is trusted. -/
structure Session.Accounted
    (requirepass : Bytes)
    (trusted : Finset Nat)
    (id : Nat)
    (session : Session) :
    Prop where
  secret : session.connection.requirepass = requirepass
  unsecured : requirepass = [] → session.connection.authenticated = true
  known : session.connection.authenticated = decide (id ∈ trusted)

/-- The connections agree with the history, and the history is as due. -/
structure EventLoop.Accounted
    (requirepass : Bytes)
    (loop : EventLoop) :
    Prop where
  sessions :
    ∀ id session,
      loop.sessions.lookup id = some session →
      session.Accounted requirepass
        (Happening.trusted requirepass loop.history) id
  guarded :
    ∀ exchange ∈ Happening.exchanges requirepass loop.history,
      exchange.Guarded requirepass

/-- The answers of the dispatcher according to the history of a loop. -/
def EventLoop.served (requirepass : Bytes) (loop : EventLoop) :
    List (Command × List RespValue) :=
  servedAnswers (Happening.exchanges requirepass loop.history)

namespace EventLoop

section Steps

variable {requirepass : Bytes} {loop next : EventLoop}

/-- Only the history and the connections are compared. -/
theorem Accounted.congr
    (accounted : loop.Accounted requirepass)
    (history : next.history = loop.history)
    (sessions :
      ∀ id session,
        next.sessions.lookup id = some session →
        loop.sessions.lookup id = some session) :
    next.Accounted requirepass := by
  refine ⟨fun id session found => ?_, ?_⟩
  · rw [history]
    exact accounted.sessions id session (sessions id session found)
  · rw [history]
    exact accounted.guarded

theorem Accounted.addClient
    {config : ServerConfig}
    (accounted : loop.Accounted config.requirepass)
    (id : Nat) :
    (loop.addClient config id).Accounted config.requirepass ∧
      (loop.addClient config id).served config.requirepass =
        loop.served config.requirepass := by
  have trusts :
      Happening.trusted config.requirepass
          (loop.addClient config id).history =
        (Happening.accepted id).trusts config.requirepass
          (Happening.trusted config.requirepass loop.history) :=
    Machine.run_concat loop.history (.accepted id)
  have exchanges :
      Happening.exchanges config.requirepass
          (loop.addClient config id).history =
        Happening.exchanges config.requirepass loop.history :=
    (Machine.emitted_append loop.history [.accepted id]).trans
      (List.append_nil _)
  refine ⟨⟨fun other one found => ?_, ?_⟩, ?_⟩
  · rw [trusts, Happening.trusts]
    rcases lookup_insert_cases found with ⟨rfl, rfl⟩ | ⟨different, earlier⟩
    · have begins :
          (Session.start
            (Connection.create other config.requirepass
              config.maxRequestBytes config.maxPendingWriteBytes)
            config.idleTimeoutSeconds).connection.authenticated =
              decide (config.requirepass = []) := by
        cases config.requirepass <;> rfl
      refine ⟨rfl, fun unsecured => ?_, begins.trans ?_⟩
      · rw [begins, unsecured]
        rfl
      · split
        · rename_i unsecured
          simp [unsecured]
        · rename_i secured
          simp [secured]
    · obtain ⟨secret, unsecured, known⟩ :=
        accounted.sessions other one earlier
      refine ⟨secret, unsecured, known.trans (decide_eq_decide.mpr ?_)⟩
      split
      · rw [Finset.mem_insert, or_iff_right different]
      · rw [Finset.mem_erase, and_iff_right different]
  · rw [exchanges]
    exact accounted.guarded
  · rw [served, exchanges]
    rfl

/-- A turn extends the history as is due. -/
theorem Accounted.extend
    {id : Nat}
    {turn : Turn}
    {after : Session}
    (accounted : loop.Accounted requirepass)
    (accounts :
      turn.Accounts requirepass
        (Happening.trusted requirepass loop.history) id)
    (connection :
      after.connection.requirepass = turn.connection.requirepass ∧
        after.connection.authenticated = turn.connection.authenticated)
    (history : next.history = loop.history ++ turn.happenings)
    (sessions : next.sessions = loop.sessions.insert id after) :
    next.Accounted requirepass ∧
      next.served requirepass =
        loop.served requirepass ++
          turn.dispatched.map Dispatch.answer := by
  have trusts :
      Happening.trusted requirepass next.history =
        (Happening.reader requirepass).run
          (Happening.trusted requirepass loop.history) turn.happenings := by
    rw [history]
    exact Machine.run_append loop.history turn.happenings
  have exchanges :
      Happening.exchanges requirepass next.history =
        Happening.exchanges requirepass loop.history ++
          (Happening.reader requirepass).emitted
            (Happening.trusted requirepass loop.history)
            turn.happenings := by
    rw [history]
    exact Machine.emitted_append loop.history turn.happenings
  refine ⟨⟨fun other one found => ?_, ?_⟩, ?_⟩
  · rw [trusts]
    rw [sessions] at found
    rcases lookup_insert_cases found with ⟨rfl, rfl⟩ | ⟨different, earlier⟩
    · exact ⟨connection.1.trans accounts.secret,
        fun unsecured => connection.2.trans (accounts.unsecured unsecured),
        connection.2.trans accounts.known⟩
    · obtain ⟨secret, unsecured, known⟩ :=
        accounted.sessions other one earlier
      refine ⟨secret, unsecured, known.trans (decide_eq_decide.mpr ?_)⟩
      exact (accounts.others other different).symm
  · rw [exchanges]
    exact List.forall_mem_append.mpr ⟨accounted.guarded, accounts.guarded⟩
  · rw [served, exchanges, servedAnswers_append, accounts.serves]
    rfl

/-- The turn of a connection begins as the history tells. -/
theorem Accounted.begin
    {id : Nat}
    {session : Session}
    (accounted : loop.Accounted requirepass)
    (consistent : loop.Consistent)
    (found : loop.sessions.lookup id = some session)
    (transport : Transport) :
    ({ session.connection with transport := transport }.begin
      loop.server).Accounts requirepass
        (Happening.trusted requirepass loop.history) id := by
  obtain ⟨secret, unsecured, known⟩ := accounted.sessions id session found
  exact ⟨consistent.own id session found, secret, unsecured, known,
    fun _ _ => Iff.rfl, rfl, fun _ member => absurd member List.not_mem_nil⟩

/-- A completion extends the history as is due. -/
theorem Accounted.handle
    {id : Nat}
    {session : Session}
    (accounted : loop.Accounted requirepass)
    (consistent : loop.Consistent)
    (found : loop.sessions.lookup id = some session)
    (reserve : Reserve)
    (completion : Completion) :
    let next := loop.handle reserve id session completion
    next.Accounted requirepass ∧
      next.served requirepass =
        loop.served requirepass ++
          (session.executes reserve loop.server completion).map
            Dispatch.answer := by
  by_cases isRead :
    ∃ clock chunk,
      completion = .readDone clock chunk ∧ session.reads ≠ 0
  · obtain ⟨clock, chunk, rfl, outstanding⟩ := isRead
    have accounts :
        (session.dataTurn reserve clock loop.server chunk).Accounts
          requirepass (Happening.trusted requirepass loop.history) id :=
      Connection.handleData_accounts
        (accounted.begin consistent found _) chunk
    have executes :
        session.executes reserve loop.server (.readDone clock chunk) =
          (session.dataTurn reserve clock loop.server chunk).dispatched :=
      if_neg outstanding
    have after :
        session.handle reserve (.readDone loop.server clock chunk) =
          session.readDone reserve clock loop.server chunk :=
      if_neg outstanding
    rw [executes]
    refine accounted.extend accounts ?_ ?_ rfl
    · rw [Completion.input, after, Session.readDone_connection]
      exact ⟨rfl, rfl⟩
    · simp only [EventLoop.handle, Completion.input, Session.answers,
        outstanding, if_false]
      rw [Turn.happenings, accounts.own]
  · obtain ⟨-, silent, transport, same⟩ :=
      (session.completion_cases reserve loop.server completion).resolve_left
        isRead
    rw [session.executes_eq_nil isRead]
    refine accounted.extend
      (accounted.begin consistent found transport) ?_ ?_ rfl
    · rw [same]
      exact ⟨rfl, rfl⟩
    · simp only [EventLoop.handle, silent]
      rfl

/-- A task extends the history as is due. -/
theorem Accounted.step
    {config : ServerConfig}
    (accounted : loop.Accounted config.requirepass)
    (consistent : loop.Consistent)
    (reserve : Reserve)
    {event : LoopEvent}
    (other : ∀ id, event ≠ .accept id) :
    let next := loop.step config reserve event
    next.Accounted config.requirepass ∧
      next.served config.requirepass =
        loop.served config.requirepass ++
          (loop.executes reserve event).map Dispatch.answer := by
  have idle :
      loop.Accounted config.requirepass ∧
        loop.served config.requirepass =
          loop.served config.requirepass ++ [] :=
    ⟨accounted, (List.append_nil _).symm⟩
  cases event with
  | accept id =>
      exact absurd rfl (other id)
  | complete id completion =>
      cases found : loop.sessions.lookup id with
      | none =>
          simp only [EventLoop.step, executes, found]
          exact idle
      | some session =>
          simp only [EventLoop.step, executes, found]
          obtain ⟨handled, serves⟩ :=
            accounted.handle consistent found reserve completion
          refine ⟨handled.congr (history_release _ id)
            fun _ _ => lookup_of_lookup_release, ?_⟩
          rw [← serves, served, history_release]
          rfl
  | runPosted =>
      have progress := loop.step_progress config reserve .runPosted
      generalize loop.step config reserve .runPosted = next at progress ⊢
      cases progress with
      | idle =>
          exact idle
      | delivered delivery later session posted found =>
          have kept :
              (loop.deliver later session delivery).Accounted
                config.requirepass := by
            refine ⟨fun id one there => ?_, accounted.guarded⟩
            rcases lookup_insert_cases there with ⟨rfl, rfl⟩ | ⟨-, earlier⟩
            · obtain ⟨secret, unsecured, known⟩ :=
                accounted.sessions _ session found
              exact ⟨secret, unsecured, known⟩
            · exact accounted.sessions id one earlier
          refine ⟨kept.congr (history_release _ _)
            fun _ _ => lookup_of_lookup_release, ?_⟩
          rw [served, history_release]
          exact (List.append_nil _).symm

end Steps

end EventLoop

namespace Process

/-- A process whose connections agree with its history. -/
structure Audited (requirepass : Bytes) (process : Process) : Prop where
  orderly : process.Orderly
  secret : process.config.requirepass = requirepass
  accounted : process.loop.Accounted requirepass

section Runs

variable {reserve : Reserve} {requirepass : Bytes} {process : Process}

/-- Whatever happens to a process extends the history as is due. -/
theorem Audited.step_served
    (audited : process.Audited requirepass)
    (event : ProcessEvent) :
    (process.step reserve event).Audited requirepass ∧
      (process.step reserve event).loop.served requirepass =
        process.loop.served requirepass ++
          (process.executes reserve event).map Dispatch.answer := by
  obtain ⟨orderly, rfl, accounted⟩ := audited
  have next := orderly.step reserve event
  obtain ⟨config, change⟩ := orderly.step_loopChange reserve event
  suffices extended :
      (process.step reserve event).loop.Accounted
          process.config.requirepass ∧
        (process.step reserve event).loop.served
            process.config.requirepass =
          process.loop.served process.config.requirepass ++
            (process.executes reserve event).map Dispatch.answer from
    ⟨⟨next, congrArg ServerConfig.requirepass config, extended.1⟩,
      extended.2⟩
  generalize process.executes reserve event = dispatches at change ⊢
  generalize (process.step reserve event).loop = loop at change ⊢
  cases change with
  | kept | swept | closed =>
      exact ⟨accounted.congr rfl fun _ _ found => found,
        (List.append_nil _).symm⟩
  | admitted id =>
      obtain ⟨admitted, same⟩ := accounted.addClient id
      exact ⟨admitted, same.trans (List.append_nil _).symm⟩
  | ran event other =>
      exact accounted.step orderly.sound.consistent reserve other

theorem audited_launch
    (reserve : Reserve)
    (around : Surroundings)
    (cfg : Config) :
    (launch reserve around cfg).Audited cfg.serverConfig.requirepass where
  orderly := orderly_launch around cfg
  secret := rfl
  accounted :=
    ⟨fun _ _ found => absurd found.symm (Option.some_ne_none _),
      fun _ member => absurd member List.not_mem_nil⟩

theorem Audited.after
    (audited : process.Audited requirepass)
    (events : List ProcessEvent) :
    (process.after reserve events).Audited requirepass :=
  Machine.invariant (Audited requirepass)
    (fun _ event before => (before.step_served event).1) audited events

/-- A run extends the history by what it executes. -/
theorem Audited.after_served
    (audited : process.Audited requirepass)
    (events : List ProcessEvent) :
    (process.after reserve events).loop.served requirepass =
      process.loop.served requirepass ++
        (process.executed reserve events).map Dispatch.answer := by
  refine Machine.traced (Audited requirepass)
    (fun _ event before => (before.step_served event).1)
    (fun first dispatches last =>
      last.loop.served requirepass =
        first.loop.served requirepass ++ dispatches.map Dispatch.answer)
    (fun _ => (List.append_nil _).symm) ?_
    (fun _ event before => (before.step_served event).2) audited events
  intro first middle last items more earlier later
  rw [later, earlier, List.map_append, List.append_assoc]

end Runs

/--
What clients of a server were answered is one sequential execution: the answers
to trusted clients, apart from AUTH and the subscriptions, are those to the
executed commands in the order of execution, and each of these commands finds
the store that the one before it has left, up to passes of the expiry thread.
-/
theorem answers_are_sequential
    (reserve : Reserve)
    (around : Surroundings)
    (cfg : Config)
    (events : List ProcessEvent) :
    let process := launch reserve around cfg
    let now := process.after reserve events
    let executed := process.executed reserve events
    servedAnswers
          (Happening.exchanges cfg.serverConfig.requirepass
            now.loop.history) =
        executed.map Dispatch.answer ∧
      Sequential process.loop.server.backend.store executed
        now.loop.server.backend.store := by
  intro process now executed
  have executes :
      process.loop.server.Executes reserve executed now.loop.server :=
    (orderly_launch around cfg).after_executes events
  exact ⟨(audited_launch reserve around cfg).after_served events,
    executes.store⟩

/--
The history tells at any time which connections may use the server: those that
have given the password since they were accepted, or all if there is none.
Every command of any other connection was answered by the fixed refusal or, if
it gave the password, by OK.
-/
theorem authentication_follows_history
    (reserve : Reserve)
    (around : Surroundings)
    (cfg : Config)
    (events : List ProcessEvent) :
    let requirepass := cfg.serverConfig.requirepass
    let loop := ((launch reserve around cfg).after reserve events).loop
    (∀ id session,
      loop.sessions.lookup id = some session →
      (session.connection.authenticated = true ↔
        id ∈ Happening.trusted requirepass loop.history)) ∧
    ∀ exchange ∈ Happening.exchanges requirepass loop.history,
      exchange.trusted = false →
      exchange.replies = [lockedReply requirepass exchange.cmd] := by
  intro requirepass loop
  have accounted : loop.Accounted requirepass :=
    ((audited_launch reserve around cfg).after events).accounted
  refine ⟨fun id session found => ?_, accounted.guarded⟩
  rw [(accounted.sessions id session found).known, decide_eq_true_iff]

/-- An exchange that was served is one of a command that was executed. -/
theorem exists_executed
    (reserve : Reserve)
    (around : Surroundings)
    (cfg : Config)
    (events : List ProcessEvent)
    {exchange : Exchange}
    (member :
      exchange ∈
        Happening.exchanges cfg.serverConfig.requirepass
          ((launch reserve around cfg).after reserve events).loop.history)
    (served : exchange.isServed = true) :
    ∃ dispatch ∈ (launch reserve around cfg).executed reserve events,
      dispatch.answer = exchange.answer := by
  have whole :
      ((launch reserve around cfg).after reserve events).loop.served
          cfg.serverConfig.requirepass =
        ((launch reserve around cfg).executed reserve events).map
          Dispatch.answer :=
    (audited_launch reserve around cfg).after_served events
  refine List.mem_map.mp ?_
  rw [← whole]
  exact List.mem_map_of_mem (List.mem_filter.mpr ⟨member, served⟩)

/--
While the loop of a server that `main` has started runs, exactly one accept is
outstanding on an open acceptor and the server is ready.  READY was answered
with READY to every client that has given the password, if there is one, and
refused to all others.
-/
theorem serves_while_running
    (reserve : Reserve)
    (around : Surroundings)
    (cfg : Config)
    (events : List ProcessEvent) :
    let process := (launch reserve around cfg).after reserve events
    (process.ending = none →
      process.accepts = 1 ∧
        process.acceptorOpen = true ∧
        process.ready = true) ∧
    ∀ exchange ∈
        Happening.exchanges cfg.serverConfig.requirepass
          process.loop.history,
      exchange.cmd = ⟨ascii "READY", []⟩ →
      exchange.replies =
        [if exchange.trusted then
          .simpleString (ascii "READY")
        else
          err "NOAUTH Authentication required."] := by
  intro process
  refine ⟨fun running => ?_, fun exchange member asks => ?_⟩
  · obtain ⟨-, isOpen, isReady, accepts, -⟩ :=
      ((orderly_launch around cfg).after events).running running
    exact ⟨accepts, isOpen, isReady⟩
  have audited := audited_launch reserve around cfg
  cases trusted : exchange.trusted with
  | false =>
      -- The history alone tells that the client was refused.
      rw [(audited.after events).accounted.guarded exchange member trusted,
        asks]
      rfl
  | true =>
      -- What was answered to it is the reply to a command that was executed.
      have served : exchange.isServed = true := by
        rw [Exchange.isServed, trusted, asks]
        decide
      obtain ⟨dispatch, executed, same⟩ :=
        exists_executed reserve around cfg events member served
      have ready :=
        (orderly_launch around cfg).ready_executed events dispatch executed
      obtain ⟨cmd, replies⟩ := Prod.mk.inj same
      rw [← replies, Dispatch.reply_ready ready (cmd.trans asks)]
      rfl

end Process

end Vortek
