import Vortek.Authentication
import Vortek.EntrywiseCommands
import Vortek.SequentialExecution

namespace Vortek

open EmittingMachine IncrementalDecoder

/-!
# Nobody sees the expiry thread

A pass of the expiry thread removes entries that no lookup finds any more.  A
process is compared with the same process without any pass: both have the same
connections, answers, deliveries, statistics and file, and their stores look
alike.  This needs a clock that does not run backwards, and clients that do not
ask how many keys there are.
-/

/-- The same with another store. -/
def Server.withStore (server : Server) (store : KvStore) : Server :=
  { server with backend := server.backend.withStore store }

section Serving

variable {reserve : Reserve} {clock : Nat → TimePoint} {now : TimePoint}
variable {store : KvStore} {cmd : Command}

/-- A command that counts no entries answers the same on both stores. -/
theorem Backend.answer_withStore
    {backend : Backend}
    (plain : Dispatcher.countsEntries cmd.name = false)
    (alike : KvStore.Mirrors now backend.store now store) :
    ∃ left,
      (backend.withStore store).answer now cmd =
          ((backend.answer now cmd).1,
            (backend.answer now cmd).2.withStore left) ∧
        KvStore.Mirrors now (backend.answer now cmd).2.store now left := by
  obtain ⟨left, same, still⟩ := dispatch_withStore plain alike
  unfold answer
  rw [same]
  generalize backend.dispatch now cmd = outcome at still ⊢
  obtain ⟨_ | reply, after⟩ := outcome
  · exact ⟨left, rfl, still⟩
  · exact ⟨left, rfl, still⟩

/-- The file does not depend on the store. -/
theorem Server.logWrite_withStore
    (reserve : Reserve)
    (server : Server)
    (store : KvStore)
    (cmd : Command) :
    (server.withStore store).logWrite reserve cmd =
      (server.logWrite reserve cmd).map fun logged =>
        logged.withStore store := by
  obtain ⟨backend, aof⟩ := server
  cases aof with
  | none =>
      rfl
  | some file =>
      simp only [logWrite, withStore]
      split
      · cases file.log reserve cmd <;> rfl
      · rfl

namespace Turn

/-- Answer a command that has been dispatched. -/
def settle
    (turn : Turn)
    (cmd : Command) :
    Except CppException RespValue → Control Turn
  | .error exception => .leave (turn.fail cmd exception)
  | .ok value => .proceed (turn.reply cmd value)

/-- A turn in which a command has been logged and dispatched. -/
def dispatching
    (turn : Turn)
    (logged : Server)
    (now : TimePoint)
    (cmd : Command) :
    Turn :=
  { turn with
    server := (logged.dispatch now cmd).2
    dispatched := turn.dispatched ++ [⟨now, logged.backend, cmd⟩] }

theorem execute_of_error
    {turn : Turn}
    {exception : CppException}
    (logs : turn.server.logWrite reserve cmd = .error exception)
    (now : TimePoint) :
    turn.execute reserve now cmd = .leave (turn.fail cmd exception) := by
  simp only [execute, logs]

/-- A command that has been logged is dispatched and settled. -/
theorem execute_of_ok
    {turn : Turn}
    {logged : Server}
    (logs : turn.server.logWrite reserve cmd = .ok logged)
    (now : TimePoint) :
    turn.execute reserve now cmd =
      (turn.dispatching logged now cmd).settle cmd
        (logged.dispatch now cmd).1 := by
  simp only [execute, logs, dispatching]
  cases (logged.dispatch now cmd).1 <;> rfl

/-- Another store behind the turn, and other states found by its commands. -/
def withStore
    (turn : Turn)
    (store : KvStore)
    (dispatched : List Dispatch) :
    Turn :=
  { turn with
    server := turn.server.withStore store
    dispatched := dispatched }

theorem withStore_connection
    (turn : Turn)
    (store : KvStore)
    (dispatched : List Dispatch) :
    (turn.withStore store dispatched).connection = turn.connection :=
  rfl

theorem unsubscribe_withStore
    (turn : Turn)
    (store : KvStore)
    (dispatched : List Dispatch)
    (cmd : Command) :
    (turn.withStore store dispatched).unsubscribe cmd =
      (turn.unsubscribe cmd).withStore store dispatched := by
  obtain ⟨connection, ⟨⟨held, stats, broker, posted⟩, aof⟩⟩ := turn
  cases broker <;> rfl

/-- The store looks like that of the turn to the next command. -/
def LooksLike
    (clock : Nat → TimePoint)
    (turn : Turn)
    (store : KvStore) :
    Prop :=
  KvStore.Mirrors
    (clock turn.answered.length) turn.server.backend.store
    (clock turn.answered.length) store

/-- Only the stores differ, and they look alike. -/
def Twins (clock : Nat → TimePoint) (turn copy : Turn) : Prop :=
  ∃ store dispatched,
    copy = turn.withStore store dispatched ∧ turn.LooksLike clock store

/-- A command of the turn has asked how many keys there are. -/
def HasCounted (turn : Turn) : Prop :=
  ∃ dispatch ∈ turn.dispatched,
    Dispatcher.countsEntries dispatch.cmd.name = true

/-- A turn that has counted entries stays one. -/
theorem HasCounted.serve
    {turn : Turn}
    (counted : turn.HasCounted)
    (value : RespValue) :
    (turn.serve reserve clock value).state.HasCounted := by
  obtain ⟨dispatch, member, counts⟩ := counted
  obtain ⟨_, dispatches, -, dispatched, -⟩ :=
    (turn.serve_extends reserve clock value).records
  refine ⟨dispatch, ?_, counts⟩
  rw [dispatched]
  exact List.mem_append_left _ member

variable {turn copy : Turn}
variable (steady : ∀ count, clock count ≤ clock (count + 1))

include steady

/-- The next command comes later. -/
theorem LooksLike.next
    {after : Turn}
    {answer : Command × List RespValue}
    (alike :
      KvStore.Mirrors
        (clock turn.answered.length) after.server.backend.store
        (clock turn.answered.length) store)
    (answered : after.answered = turn.answered ++ [answer]) :
    after.LooksLike clock store := by
  unfold LooksLike
  rw [answered, List.length_append, List.length_singleton]
  exact alike.pass (steady _)

/-- Twins execute a command alike, unless it counts entries. -/
theorem Twins.execute
    (twins : turn.Twins clock copy)
    (cmd : Command) :
    let now := clock turn.answered.length
    (turn.execute reserve now cmd).state.HasCounted ∨
      (turn.execute reserve now cmd).Agree (Twins clock)
        (copy.execute reserve now cmd) := by
  intro now
  obtain ⟨store, others, rfl, alike⟩ := twins
  have copies := turn.server.logWrite_withStore reserve store cmd
  cases logs : turn.server.logWrite reserve cmd with
  | error exception =>
      rw [logs] at copies
      rw [execute_of_error logs, execute_of_error copies]
      exact Or.inr
        (.leave ⟨store, others, rfl, LooksLike.next steady alike rfl⟩)
  | ok logged =>
      rw [logs] at copies
      rw [execute_of_ok logs, execute_of_ok copies]
      have kept : logged.backend = turn.server.backend :=
        Server.backend_of_logWrite logs
      cases counts : Dispatcher.countsEntries cmd.name with
      | true =>
          left
          have recorded :
              (turn.dispatching logged now cmd).HasCounted :=
            ⟨_, List.mem_append_right _ (List.mem_singleton_self _), counts⟩
          cases (logged.dispatch now cmd).1 <;> exact recorded
      | false =>
          right
          have same :
              KvStore.Mirrors now logged.backend.store now store := by
            rw [kept]
            exact alike
          obtain ⟨left, answers, still⟩ :=
            Backend.answer_withStore counts same
          have after :
              (logged.withStore store).dispatch now cmd =
                ((logged.dispatch now cmd).1,
                  (logged.dispatch now cmd).2.withStore left) := by
            simp only [Server.dispatch, Server.withStore, answers]
          unfold dispatching
          rw [after]
          cases (logged.dispatch now cmd).1 with
          | error exception =>
              exact .leave ⟨left, _, rfl, LooksLike.next steady still rfl⟩
          | ok value =>
              exact .proceed ⟨left, _, rfl, LooksLike.next steady still rfl⟩

/-- Serving a value counts the keys, or keeps twins twins. -/
theorem Twins.serve
    (twins : turn.Twins clock copy)
    (value : RespValue) :
    (turn.serve reserve clock value).state.HasCounted ∨
      (turn.serve reserve clock value).Agree (Twins clock)
        (copy.serve reserve clock value) := by
  obtain ⟨store, others, rfl, alike⟩ := twins
  unfold Turn.serve
  cases parseCommand value with
  | none =>
      exact Or.inr (.leave ⟨store, others, rfl, alike⟩)
  | some cmd =>
      dsimp only
      by_cases auth : cmd.name = ascii "AUTH"
      · rw [if_pos auth, if_pos auth]
        exact Or.inr
          (.proceed ⟨store, others, rfl, LooksLike.next steady alike rfl⟩)
      · rw [if_neg auth, if_neg auth, withStore_connection]
        by_cases locked : turn.connection.authenticated = false
        · rw [if_pos locked, if_pos locked]
          exact Or.inr
            (.proceed ⟨store, others, rfl, LooksLike.next steady alike rfl⟩)
        · rw [if_neg locked, if_neg locked]
          by_cases joins : cmd.name = ascii "SUBSCRIBE"
          · rw [if_pos joins, if_pos joins]
            exact Or.inr
              (.proceed ⟨store, others, rfl,
                LooksLike.next steady alike rfl⟩)
          · rw [if_neg joins, if_neg joins]
            by_cases leaves : cmd.name = ascii "UNSUBSCRIBE"
            · rw [if_pos leaves, if_pos leaves]
              obtain ⟨replies, same, answered⟩ :
                  ∃ replies,
                    (turn.unsubscribe cmd).server.backend.store =
                        turn.server.backend.store ∧
                      (turn.unsubscribe cmd).answered =
                        turn.answered ++ [(cmd, replies)] := by
                unfold unsubscribe
                split <;> exact ⟨_, rfl, rfl⟩
              rw [unsubscribe_withStore]
              refine Or.inr (.proceed ⟨store, others, rfl,
                LooksLike.next steady ?_ answered⟩)
              rw [same]
              exact alike
            · rw [if_neg leaves, if_neg leaves]
              exact Twins.execute steady ⟨store, others, rfl, alike⟩ cmd

omit steady in
theorem finish_withStore
    (turn : Turn)
    (store : KvStore)
    (dispatched : List Dispatch) :
    (turn.withStore store dispatched).finish =
      turn.finish.withStore store dispatched := by
  unfold finish
  change (if turn.responses.isEmpty then _ else _) = _
  split <;> rfl

end Turn

end Serving

section Reading

variable {reserve : Reserve} {clock : Nat → TimePoint}
variable {connection : Connection} {server : Server} {store : KvStore}
variable (steady : ∀ count, clock count ≤ clock (count + 1))
variable
  (alike :
    KvStore.Mirrors (clock 0) server.backend.store (clock 0) store)

include steady alike

/-- The loop of a read counts the keys, or is the same on both sides. -/
theorem Connection.dataTurn_twins
    (chunk : Bytes) :
    let turn := connection.dataTurn reserve clock server chunk
    turn.HasCounted ∨
      turn.Twins clock
        (connection.dataTurn reserve clock (server.withStore store)
          chunk) := by
  have begun :
      (connection.begin server).Twins clock
        (connection.begin (server.withStore store)) :=
    ⟨store, [], rfl, alike⟩
  have looped :=
    consumeAll_inStep (RespParser.decode reserve)
      (Turn.serve reserve clock) (Turn.serve reserve clock)
      (Turn.Twins clock) Turn.HasCounted
      (fun _ value counted => counted.serve value)
      (fun _ _ value twins => Turn.Twins.serve steady twins value)
      begun (connection.parser.buf ++ chunk)
  rw [← RespParser.feedEach_eq_consumeAll,
    ← RespParser.feedEach_eq_consumeAll] at looped
  unfold dataTurn
  dsimp only at looped ⊢
  generalize RespParser.feedEach reserve (Turn.serve reserve clock)
    (connection.begin server) connection.parser chunk = loop at looped ⊢
  generalize RespParser.feedEach reserve (Turn.serve reserve clock)
    (connection.begin (server.withStore store)) connection.parser
    chunk = copy at looped ⊢
  obtain ⟨state, rest, ending⟩ := loop
  obtain ⟨copied, left, finished⟩ := copy
  rcases looped with
    counted | ⟨⟨kept, others, same, still⟩, sameRest, sameEnding⟩
  · left
    cases ending <;> exact counted
  · right
    dsimp only at same still sameRest sameEnding ⊢
    subst same sameRest sameEnding
    cases ending <;> exact ⟨kept, others, rfl, still⟩

/-- The loop of a read counts the keys, or makes the same calls. -/
theorem Connection.served_calls_alike
    (chunk : Bytes) :
    (connection.dataTurn reserve clock server chunk).HasCounted ∨
      ((connection.served reserve clock server chunk).flatMap
          fun visit => visit.1.serveCalls visit.2) =
        (connection.served reserve clock (server.withStore store)
            chunk).flatMap
          fun visit => visit.1.serveCalls visit.2 := by
  have begun :
      (connection.begin server).Twins clock
        (connection.begin (server.withStore store)) :=
    ⟨store, [], rfl, alike⟩
  have shows :
      ∀ (turn copy : Turn) (value : RespValue),
        turn.Twins clock copy →
        turn.serveCalls value = copy.serveCalls value := by
    rintro turn copy value ⟨kept, others, rfl, -⟩
    rfl
  have looped :=
    visits_inStep (RespParser.decode reserve)
      (Turn.serve reserve clock) (Turn.serve reserve clock)
      (Turn.Twins clock) Turn.HasCounted
      (fun _ value counted => counted.serve value)
      (fun _ _ value twins => Turn.Twins.serve steady twins value)
      Turn.serveCalls Turn.serveCalls shows
      begun (connection.parser.buf ++ chunk)
  rw [← RespParser.feedEach_eq_consumeAll] at looped
  rcases looped with counted | same
  · left
    unfold dataTurn
    dsimp only
    split <;> exact counted
  · right
    rw [List.flatMap_def, List.flatMap_def]
    exact congrArg List.flatten same

/-- A read that does not count the keys is the same on both sides. -/
theorem Connection.handleData_withStore
    {done : TimePoint}
    (bounded : ∀ count, clock count ≤ done)
    {chunk : Bytes}
    (uncounted :
      ¬(connection.handleData reserve clock server chunk).HasCounted) :
    let turn := connection.handleData reserve clock server chunk
    (∃ left others,
      connection.handleData reserve clock (server.withStore store) chunk =
          turn.withStore left others ∧
        KvStore.Mirrors done turn.server.backend.store done left) ∧
      connection.handleCalls reserve clock (server.withStore store) chunk =
        connection.handleCalls reserve clock server chunk := by
  rw [handleData_eq_dataTurn] at uncounted
  rw [handleData_eq_dataTurn, handleData_eq_dataTurn]
  unfold handleCalls
  cases exceeds : connection.exceedsRequest chunk with
  | true =>
      refine ⟨⟨store, [], ?_, alike.pass (bounded 0)⟩, rfl⟩
      exact connection.refuseRequest_eq server (server.withStore store)
  | false =>
      simp only [exceeds, Bool.false_eq_true, if_false] at uncounted ⊢
      have loops :
          ¬(connection.dataTurn reserve clock server chunk).HasCounted := by
        intro counted
        refine uncounted ?_
        unfold Turn.HasCounted
        rw [Turn.finish_dispatched]
        exact counted
      have calls :=
        (Connection.served_calls_alike steady alike chunk).resolve_left
          loops
      obtain ⟨left, others, same, still⟩ :=
        (Connection.dataTurn_twins steady alike chunk).resolve_left loops
      rw [same, calls]
      refine ⟨⟨left, others, Turn.finish_withStore _ _ _, ?_⟩, rfl⟩
      rw [Turn.finish_server]
      exact still.pass (bounded _)

end Reading

/-- The clock goes from one reading to the other during a completion. -/
def Completion.Spans (start finish : TimePoint) : Completion → Prop
  | .readDone clock _ =>
      start ≤ clock 0 ∧
        (∀ count, clock count ≤ clock (count + 1)) ∧
        ∀ count, clock count ≤ finish
  | _ => start ≤ finish

theorem Completion.Spans.forward
    {start finish : TimePoint}
    {completion : Completion}
    (spans : completion.Spans start finish) :
    start ≤ finish := by
  cases completion with
  | readDone clock chunk =>
      exact Int64.le_trans spans.1 (spans.2.2 0)
  | readFailed | writeDone | writeFailed | waitExpired | waitAborted =>
      exact spans

namespace ProcessEvent

/-- The clock goes from one reading to the other during an event. -/
def Spans (start finish : TimePoint) : ProcessEvent → Prop
  | .sweep now => start ≤ now ∧ now ≤ finish
  | .complete _ completion => completion.Spans start finish
  | _ => start ≤ finish

theorem Spans.forward
    {start finish : TimePoint}
    {event : ProcessEvent}
    (spans : event.Spans start finish) :
    start ≤ finish := by
  cases event with
  | sweep now =>
      exact Int64.le_trans spans.1 spans.2
  | complete id completion =>
      exact Completion.Spans.forward spans
  | signal | acceptDone | pollDone | runPosted =>
      exact spans

/-- A pass of the expiry thread. -/
def isSweep : ProcessEvent → Bool
  | .sweep _ => true
  | _ => false

theorem exists_of_isSweep
    {event : ProcessEvent}
    (sweeps : event.isSweep = true) :
    ∃ now, event = .sweep now := by
  cases event with
  | sweep now =>
      exact ⟨now, rfl⟩
  | signal | acceptDone | pollDone | complete | runPosted =>
      exact absurd sweeps Bool.false_ne_true

/-- The clock does not run backwards while some events happen. -/
inductive Timely : TimePoint → List ProcessEvent → TimePoint → Prop where
  | nil
      (now : TimePoint) :
      Timely now [] now
  | cons
      {start middle finish : TimePoint}
      {event : ProcessEvent}
      {later : List ProcessEvent}
      (spans : event.Spans start middle)
      (rest : Timely middle later finish) :
      Timely start (event :: later) finish

end ProcessEvent

/-- None of the commands asks how many keys there are. -/
def Uncounted (dispatches : List Dispatch) : Prop :=
  ∀ dispatch ∈ dispatches,
    Dispatcher.countsEntries dispatch.cmd.name = false

theorem Uncounted.not_hasCounted
    {turn : Turn}
    (uncounted : Uncounted turn.dispatched) :
    ¬turn.HasCounted := by
  rintro ⟨dispatch, member, counts⟩
  rw [uncounted dispatch member] at counts
  exact Bool.false_ne_true counts

namespace EventLoop

/-- The same with another store. -/
def withStore (loop : EventLoop) (store : KvStore) : EventLoop :=
  { loop with server := loop.server.withStore store }

section Tasks

variable {reserve : Reserve} {loop : EventLoop} {store : KvStore}
variable {start finish : TimePoint} {completion : Completion}

/-- What points to a connection does not depend on the store. -/
theorem release_withStore
    (loop : EventLoop)
    (store : KvStore)
    (id : Nat) :
    (loop.withStore store).release id =
      (loop.release id).withStore store := by
  have sessions : (loop.withStore store).sessions = loop.sessions :=
    rfl
  cases found : loop.sessions.lookup id with
  | none =>
      simp only [release, sessions, found]
  | some session =>
      have held :
          (loop.withStore store).isHeld id session =
            loop.isHeld id session :=
        rfl
      simp only [release, sessions, found, held]
      split <;> rfl

variable
  (alike :
    KvStore.Mirrors start loop.server.backend.store start store)

include alike

/-- A completion does the same over both stores. -/
theorem handle_withStore
    (spans : completion.Spans start finish)
    (id : Nat)
    {session : Session}
    (uncounted :
      Uncounted (session.executes reserve loop.server completion)) :
    ∃ left,
      (loop.withStore store).handle reserve id session completion =
          (loop.handle reserve id session completion).withStore left ∧
        KvStore.Mirrors
          finish
          (loop.handle reserve id session completion).server.backend.store
          finish left := by
  cases completion with
  | readFailed | writeDone | writeFailed | waitExpired | waitAborted =>
      exact ⟨store, rfl, alike.pass spans⟩
  | readDone clock chunk =>
      obtain ⟨begun, steady, bounded⟩ := spans
      by_cases idle : session.reads = 0
      · simp only [handle, Completion.input, Session.serverAfter,
          Session.handle, Session.answers, if_pos idle]
        exact ⟨store, rfl, alike.pass (Int64.le_trans begun (bounded 0))⟩
      · simp only [Session.executes, if_neg idle] at uncounted
        obtain ⟨⟨left, others, same, still⟩, calls⟩ :=
          Connection.handleData_withStore steady (alike.pass begun) bounded
            uncounted.not_hasCounted
        refine ⟨left, ?_, ?_⟩
        · simp only [handle, Completion.input, Session.serverAfter,
            Session.handle, Session.answers, Session.readDone,
            Session.dataTurn, if_neg idle, withStore, same, calls]
          rfl
        · simp only [handle, Session.serverAfter, if_neg idle]
          exact still

/-- So does the event of the loop. -/
theorem complete_withStore
    (spans : completion.Spans start finish)
    (config : ServerConfig)
    (id : Nat)
    (uncounted :
      Uncounted (loop.executes reserve (.complete id completion))) :
    let next := loop.step config reserve (.complete id completion)
    ∃ left,
      (loop.withStore store).step config reserve (.complete id completion) =
          next.withStore left ∧
        KvStore.Mirrors finish next.server.backend.store finish left := by
  have sessions : (loop.withStore store).sessions = loop.sessions :=
    rfl
  cases found : loop.sessions.lookup id with
  | none =>
      simp only [step, sessions, found]
      exact ⟨store, rfl, alike.pass spans.forward⟩
  | some session =>
      simp only [executes, found] at uncounted
      obtain ⟨left, same, still⟩ :=
        handle_withStore alike spans id uncounted
      simp only [step, sessions, found, same, release_withStore]
      refine ⟨left, rfl, ?_⟩
      rw [(release_store _ id).1]
      exact still

omit alike in
/-- Deliveries do not depend on the store. -/
theorem runPosted_withStore
    (config : ServerConfig)
    (reserve : Reserve)
    (loop : EventLoop)
    (store : KvStore) :
    (loop.withStore store).step config reserve .runPosted =
        (loop.step config reserve .runPosted).withStore store ∧
      (loop.step config reserve .runPosted).server.backend.store =
        loop.server.backend.store := by
  have sessions : (loop.withStore store).sessions = loop.sessions :=
    rfl
  have tasks :
      (loop.withStore store).server.backend.posted =
        loop.server.backend.posted :=
    rfl
  cases posted : loop.server.backend.posted with
  | nil =>
      simp only [step, tasks, posted]
      exact ⟨trivial, trivial⟩
  | cons delivery later =>
      cases found : loop.sessions.lookup delivery.write.connection with
      | none =>
          simp only [step, tasks, posted, sessions, found]
          exact ⟨trivial, trivial⟩
      | some session =>
          have delivered :
              (loop.withStore store).deliver later session delivery =
                (loop.deliver later session delivery).withStore store :=
            rfl
          simp only [step, tasks, posted, sessions, found, delivered,
            release_withStore, (release_store _ _).1]
          exact ⟨trivial, rfl⟩

end Tasks

end EventLoop

namespace Process

/-- The same with another store. -/
def withStore (process : Process) (store : KvStore) : Process :=
  { process with loop := process.loop.withStore store }

/-- The store of a process. -/
def store (process : Process) : KvStore :=
  process.loop.server.backend.store

section Events

variable {reserve : Reserve} {process : Process}
variable {start finish : TimePoint} {event : ProcessEvent}

theorem handleAccept_withStore
    (process : Process)
    (other : KvStore)
    (result : AcceptResult) :
    (process.withStore other).handleAccept result =
        (process.handleAccept result).withStore other ∧
      (process.handleAccept result).store = process.store := by
  cases result with
  | socket id connected =>
      have full : (process.withStore other).isFull = process.isFull :=
        rfl
      simp only [handleAccept, full]
      split
      · exact ⟨rfl, rfl⟩
      · split
        · exact ⟨rfl, rfl⟩
        · exact ⟨rfl, rfl⟩
  | aborted =>
      exact ⟨rfl, rfl⟩
  | failed =>
      have stopping :
          (process.withStore other).stopping = process.stopping :=
        rfl
      simp only [handleAccept, stopping]
      split
      · exact ⟨rfl, rfl⟩
      · exact ⟨rfl, rfl⟩

/-- Polling for signals does not look at the store. -/
theorem handlePoll_withStore
    (process : Process)
    (other : KvStore)
    (result : PollResult) :
    (process.withStore other).handlePoll result =
        (process.handlePoll result).withStore other ∧
      (process.handlePoll result).store = process.store := by
  cases result with
  | elapsed =>
      have stopping :
          (process.withStore other).stopping = process.stopping :=
        rfl
      have signalled :
          (process.withStore other).lastSignal = process.lastSignal :=
        rfl
      simp only [handlePoll, pollSignalFlag, stop, stopping, signalled]
      split
      · exact ⟨rfl, rfl⟩
      · split
        · exact ⟨rfl, rfl⟩
        · exact ⟨rfl, rfl⟩
  | aborted | failed =>
      exact ⟨rfl, rfl⟩

theorem enabled_withStore
    (process : Process)
    (other : KvStore)
    (event : ProcessEvent) :
    (process.withStore other).enabled event = process.enabled event := by
  cases event <;> rfl

variable {other : KvStore}
variable (alike : KvStore.Mirrors start process.store start other)

include alike

/-- A pass of the expiry thread keeps what the store looks like. -/
theorem step_sweep
    (reserve : Reserve)
    {now : TimePoint}
    (spans : (ProcessEvent.sweep now).Spans start finish) :
    KvStore.Mirrors finish (process.step reserve (.sweep now)).store
      finish other :=
  (alike.pass (Int64.le_trans spans.1 spans.2)).sweep spans.2

/-- Anything else happens on both sides. -/
theorem step_withStore
    (visible : event.isSweep = false)
    (spans : event.Spans start finish)
    (uncounted : Uncounted (process.executes reserve event)) :
    ∃ left,
      (process.withStore other).step reserve event =
          (process.step reserve event).withStore left ∧
        KvStore.Mirrors finish (process.step reserve event).store
          finish left := by
  unfold step
  rw [enabled_withStore]
  cases can : process.enabled event with
  | false =>
      exact ⟨other, rfl, alike.pass spans.forward⟩
  | true =>
      simp only [if_true]
      cases event with
      | signal signal =>
          exact ⟨other, rfl, alike.pass spans⟩
      | sweep now =>
          exact absurd visible (Bool.false_ne_true ∘ Eq.symm)
      | acceptDone result =>
          obtain ⟨same, kept⟩ :=
            handleAccept_withStore
              { process with accepts := process.accepts - 1 } other result
          refine ⟨other, same, ?_⟩
          simp only [perform, kept]
          exact alike.pass spans
      | pollDone result =>
          obtain ⟨same, kept⟩ :=
            handlePoll_withStore
              { process with polls := process.polls - 1 } other result
          refine ⟨other, same, ?_⟩
          simp only [perform, kept]
          exact alike.pass spans
      | complete id completion =>
          have running : process.ending.isNone = true :=
            can
          simp only [executes, running, if_true] at uncounted
          obtain ⟨left, same, still⟩ :=
            EventLoop.complete_withStore alike spans process.config id
              uncounted
          refine ⟨left, ?_, still⟩
          exact congrArg (fun loop => { process with loop := loop }) same
      | runPosted =>
          obtain ⟨same, kept⟩ :=
            EventLoop.runPosted_withStore process.config reserve
              process.loop other
          refine ⟨other, ?_, ?_⟩
          · exact congrArg (fun loop => { process with loop := loop }) same
          · simp only [perform, store, kept]
            exact alike.pass spans

/-- Leave out the passes of the expiry thread, and only the store differs. -/
theorem after_withStore
    {events : List ProcessEvent}
    (timely : ProcessEvent.Timely start events finish)
    (uncounted : Uncounted (process.executed reserve events)) :
    ∃ left,
      (process.withStore other).after reserve
            (events.filter fun event => !event.isSweep) =
          (process.after reserve events).withStore left ∧
        KvStore.Mirrors finish (process.after reserve events).store
          finish left := by
  induction timely generalizing process other with
  | nil now =>
      exact ⟨other, rfl, alike⟩
  | @cons start middle finish event later spans rest inductionHypothesis =>
      obtain ⟨first, more⟩ := List.forall_mem_append.mp uncounted
      cases sweeps : event.isSweep with
      | true =>
          rw [List.filter_cons_of_neg (by simp [sweeps])]
          obtain ⟨now, rfl⟩ := ProcessEvent.exists_of_isSweep sweeps
          exact inductionHypothesis (step_sweep alike reserve spans) more
      | false =>
          rw [List.filter_cons_of_pos (by simp [sweeps])]
          obtain ⟨left, same, still⟩ :=
            step_withStore alike sweeps spans first
          obtain ⟨final, agree, looks⟩ := inductionHypothesis still more
          refine ⟨final, ?_, looks⟩
          change ((process.withStore other).step reserve event).after
            reserve _ = _
          rw [same]
          exact agree

end Events

/--
If the clock does not run backwards and no client asks how many keys there are,
then all that a server does is what it would do without any pass of the expiry
thread: its connections with their output, the history, what is posted, the
statistics and the file are the same, and only entries that no lookup finds any
more tell the stores apart.
-/
theorem sweeps_are_unseen
    (reserve : Reserve)
    (around : Surroundings)
    (cfg : Config)
    (events : List ProcessEvent)
    (start finish : TimePoint)
    (timely : ProcessEvent.Timely start events finish)
    (uncounted :
      Uncounted ((launch reserve around cfg).executed reserve events)) :
    let process := launch reserve around cfg
    let swept := process.after reserve events
    let unswept :=
      process.after reserve (events.filter fun event => !event.isSweep)
    unswept = swept.withStore unswept.store ∧
      ∀ later,
        finish ≤ later →
        ∀ key,
          unswept.store.liveEntry later key =
            swept.store.liveEntry later key := by
  intro process swept unswept
  have begun :
      KvStore.Mirrors start process.store start process.store :=
    ⟨fun _ => rfl, fun differs => absurd rfl differs⟩
  obtain ⟨left, same, alike⟩ := after_withStore begun timely uncounted
  have reached : unswept = swept.withStore left :=
    same
  rw [reached]
  exact ⟨rfl, fun later order key => (alike.pass order).live key⟩

/-- A key that has expired is swept in one of two runs, and read in both. -/
theorem sweeps_are_unseen_expired :
    let around : Surroundings :=
      ⟨fun _ => .error [], fun _ => none, 0, fun _ => 0, fun _ => true⟩
    let read (now : TimePoint) (name : String) (args : List String) :
        ProcessEvent :=
      .complete 7
        (.readDone (fun _ => now)
          (AofPersistence.wire [⟨ascii name, args.map ascii⟩]))
    let events : List ProcessEvent :=
      [.acceptDone (.socket 7 true), read 1 "SET" ["k", "v", "PX", "1"],
        .complete 7 .writeDone, .sweep 2000000, read 2000001 "GET" ["k"]]
    let process := launch (fun _ => none) around {}
    let swept := process.after (fun _ => none) events
    let unswept :=
      process.after (fun _ => none)
        (events.filter fun event => !event.isSweep)
    swept.store.size = 0 ∧
      unswept.store.size = 1 ∧
      unswept = swept.withStore unswept.store := by
  intro around read events process swept unswept
  have reads
      {start now : TimePoint}
      (order : start ≤ now)
      (name : String)
      (args : List String) :
      (read now name args).Spans start now :=
    ⟨order, fun _ => Int64.le_refl now, fun _ => Int64.le_refl now⟩
  have accepts :
      (ProcessEvent.acceptDone (.socket 7 true)).Spans 0 0 :=
    Int64.le_refl 0
  have writes : (ProcessEvent.complete 7 .writeDone).Spans 1 1 :=
    Int64.le_refl 1
  have sweeps : (ProcessEvent.sweep 2000000).Spans 1 2000000 :=
    ⟨by decide, Int64.le_refl _⟩
  have timely : ProcessEvent.Timely 0 events 2000001 :=
    .cons accepts (.cons (reads (by decide) _ _) (.cons writes
      (.cons sweeps (.cons (reads (by decide) _ _) (.nil _)))))
  have uncounted : Uncounted (process.executed (fun _ => none) events) := by
    unfold Uncounted
    decide +kernel
  obtain ⟨same, -⟩ :=
    sweeps_are_unseen (fun _ => none) around {} events 0 2000001 timely
      uncounted
  have empty : swept.store.size = 0 := by
    decide +kernel
  have full : unswept.store.size = 1 := by
    decide +kernel
  refine ⟨empty, full, ?_⟩
  exact same

end Process

end Vortek
