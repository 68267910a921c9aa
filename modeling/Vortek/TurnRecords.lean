import Vortek.Pipelining
import Vortek.PubSubTurns

namespace Vortek

open IncrementalDecoder

/-!
# The records of a read

A value that is served does one of five things (`Turn.RecordStep`): it is not a
command, it is AUTH, it is refused before AUTH, it is one of the two pub/sub
commands, or it is logged and dispatched.  What holds of the shared state and of
the records of a turn, and is kept by each of these, holds after a read
(`Connection.handleData_records`).
-/

/-- What a dispatched command came to. -/
def Dispatch.outcome (dispatch : Dispatch) : Except CppException RespValue :=
  (dispatch.backend.dispatch dispatch.now dispatch.cmd).1

/-- The reply to a dispatched command. -/
def Dispatch.reply (dispatch : Dispatch) : RespValue :=
  match dispatch.outcome with
  | .ok value => value
  | .error exception => exceptionReply exception

/-- The handler of a dispatched command did not throw. -/
def Dispatch.returned (dispatch : Dispatch) : Bool :=
  match dispatch.outcome with
  | .ok _ => true
  | .error _ => false

/-- What one value does to the shared state and to the records. -/
inductive Turn.RecordStep
    (reserve : Reserve)
    (turn : Turn)
    (value : RespValue)
    (next : Turn) :
    Prop where
  | protested
      (parsed : parseCommand value = none)
      (server : next.server = turn.server)
      (answered : next.answered = turn.answered)
      (dispatched : next.dispatched = turn.dispatched)
      (authenticated :
        next.connection.authenticated = turn.connection.authenticated)
  | identified
      (cmd : Command)
      (parsed : parseCommand value = some cmd)
      (auth : cmd.name = ascii "AUTH")
      (server : next.server = turn.server)
      (answered :
        next.answered =
          turn.answered ++ [(cmd, [(turn.connection.handleAuth cmd).1])])
      (dispatched : next.dispatched = turn.dispatched)
      (authenticated :
        next.connection.authenticated =
          (turn.connection.handleAuth cmd).2.authenticated)
  | refused
      (cmd : Command)
      (parsed : parseCommand value = some cmd)
      (other : cmd.name ≠ ascii "AUTH")
      (locked : turn.connection.authenticated = false)
      (server : next.server = turn.server)
      (answered :
        next.answered =
          turn.answered ++ [(cmd, [err "NOAUTH Authentication required."])])
      (dispatched : next.dispatched = turn.dispatched)
      (authenticated : next.connection.authenticated = false)
  | subscribed
      (cmd : Command)
      (replies : List RespValue)
      (broker : Option PubSubBroker)
      (parsed : parseCommand value = some cmd)
      (pubSub : isPubSub cmd.name = true)
      (unlocked : turn.connection.authenticated = true)
      (server :
        next.server =
          { turn.server with
            backend := { turn.server.backend with broker := broker } })
      (answered : next.answered = turn.answered ++ [(cmd, replies)])
      (dispatched : next.dispatched = turn.dispatched)
      (authenticated : next.connection.authenticated = true)
  | executed
      (cmd : Command)
      (now : TimePoint)
      (logged : Server)
      (parsed : parseCommand value = some cmd)
      (loggable : AofPersistence.Loggable reserve cmd)
      (other : cmd.name ≠ ascii "AUTH")
      (ordinary : isPubSub cmd.name = false)
      (unlocked : turn.connection.authenticated = true)
      (logs : turn.server.logWrite reserve cmd = .ok logged)
      (server : next.server = (logged.dispatch now cmd).2)
      (answered :
        next.answered =
          turn.answered ++
            [(cmd, [(Dispatch.mk now logged.backend cmd).reply])])
      (dispatched :
        next.dispatched =
          turn.dispatched ++ [Dispatch.mk now logged.backend cmd])
      (authenticated : next.connection.authenticated = true)

/-- The parts of a turn that the records are about. -/
structure Turn.SameRecords (turn next : Turn) : Prop where
  server : next.server = turn.server
  answered : next.answered = turn.answered
  dispatched : next.dispatched = turn.dispatched
  id : next.connection.id = turn.connection.id
  requirepass : next.connection.requirepass = turn.connection.requirepass
  authenticated :
    next.connection.authenticated = turn.connection.authenticated

section Serving

variable {reserve : Reserve} {clock : Nat → TimePoint}

theorem Turn.execute_recordStep
    {turn : Turn}
    {value : RespValue}
    {cmd : Command}
    (parsed : parseCommand value = some cmd)
    (loggable : AofPersistence.Loggable reserve cmd)
    (other : cmd.name ≠ ascii "AUTH")
    (ordinary : isPubSub cmd.name = false)
    (unlocked : turn.connection.authenticated = true)
    (now : TimePoint) :
    turn.RecordStep reserve value (turn.execute reserve now cmd).state := by
  obtain ⟨logged, logs⟩ :
      ∃ logged, turn.server.logWrite reserve cmd = .ok logged :=
    ⟨_, turn.server.logWrite_of_loggable loggable⟩
  have outcome :
      (Dispatch.mk now logged.backend cmd).outcome =
        (logged.dispatch now cmd).1 :=
    (Backend.answer_fst now logged.backend cmd).symm
  refine .executed cmd now logged parsed loggable other ordinary unlocked
    logs ?_ ?_ ?_ ?_
  all_goals
    unfold execute
    simp only [logs]
  · split <;> rfl
  · unfold Dispatch.reply
    rw [outcome]
    cases (logged.dispatch now cmd).1 <;> rfl
  · split <;> rfl
  · split <;> exact unlocked

/-- Serving a value is one of the five things. -/
theorem Turn.serve_recordStep
    {value : RespValue}
    (storable : value.Storable reserve)
    (turn : Turn) :
    turn.RecordStep reserve value
      (turn.serve reserve clock value).state := by
  unfold serve
  split
  · rename_i parsed
    exact .protested parsed rfl rfl rfl rfl
  · rename_i cmd parsed
    split
    · rename_i auth
      exact .identified cmd parsed auth rfl rfl rfl rfl
    · rename_i other
      split
      · rename_i locked
        exact .refused cmd parsed other locked rfl rfl rfl locked
      · rename_i known
        have unlocked : turn.connection.authenticated = true :=
          eq_true_of_ne_false known
        split
        · rename_i joins
          have pubSub : isPubSub cmd.name = true := by
            rw [joins]
            decide
          exact .subscribed cmd _ _ parsed pubSub unlocked rfl rfl rfl
            unlocked
        · rename_i notJoins
          split
          · rename_i leaves
            have pubSub : isPubSub cmd.name = true := by
              rw [leaves]
              decide
            unfold unsubscribe
            split
            · rename_i without
              refine .subscribed cmd [] none parsed pubSub unlocked ?_ rfl
                rfl unlocked
              simp only [Control.state_proceed, ← without]
            · exact .subscribed cmd _ _ parsed pubSub unlocked rfl rfl rfl
                unlocked
          · rename_i notLeaves
            have ordinary : isPubSub cmd.name = false := by
              simp [isPubSub, notJoins, notLeaves]
            exact execute_recordStep parsed
              (AofPersistence.loggable_of_parseCommand storable parsed)
              other ordinary unlocked _

end Serving

/--
A property of the records holds after a read if every value that is served keeps
it.
-/
theorem Connection.handleData_records
    (reserve : Reserve)
    (clock : Nat → TimePoint)
    (holds : Turn → Prop)
    (keeps :
      ∀ turn value next,
        turn.RecordStep reserve value next →
        next.connection.id = turn.connection.id →
        next.connection.requirepass = turn.connection.requirepass →
        holds turn →
        holds next)
    (congr :
      ∀ turn next, turn.SameRecords next → holds turn → holds next)
    {connection : Connection}
    {server : Server}
    (initially : holds (connection.begin server))
    (chunk : Bytes) :
    holds (connection.handleData reserve clock server chunk) := by
  have looped :
      holds
        (RespParser.feedEach reserve (Turn.serve reserve clock)
          (connection.begin server) connection.parser chunk).state := by
    refine RespParser.feedEach_invariant holds ?_ initially
      connection.parser chunk
    intro turn value storable before
    have calls :
        turn.Calls (turn.serveCalls value)
          (turn.serve reserve clock value).state :=
      turn.serve_calls value
    exact keeps turn value _ (turn.serve_recordStep storable) calls.id
      calls.requirepass before
  have finished :
      ∀ turn : Turn,
        holds turn →
        ∀ next, turn.SameRecords next → holds next.finish := by
    intro turn before next same
    obtain ⟨transport, connection⟩ := next.finish_connection_eq
    refine congr turn _ ⟨?_, ?_, ?_, ?_, ?_, ?_⟩ before
    · rw [Turn.finish_server, same.server]
    · rw [Turn.finish_answered, same.answered]
    · rw [Turn.finish_dispatched, same.dispatched]
    · rw [connection]
      exact same.id
    · rw [connection]
      exact same.requirepass
    · rw [connection]
      exact same.authenticated
  unfold handleData
  split
  · exact congr (connection.begin server) _
      ⟨rfl, rfl, rfl, rfl, rfl, rfl⟩ initially
  · dsimp only
    split
    · exact finished _ looped _ ⟨rfl, rfl, rfl, rfl, rfl, rfl⟩
    · exact finished _ looped _ ⟨rfl, rfl, rfl, rfl, rfl, rfl⟩
    · exact finished _ looped _ ⟨rfl, rfl, rfl, rfl, rfl, rfl⟩

section Counting

variable {reserve : Reserve} {clock : Nat → TimePoint}

/-- The statistics with more commands counted. -/
def ServerStats.counting (stats : ServerStats) (commands : Nat) :
    ServerStats :=
  { stats with totalCommands := stats.totalCommands + toInt64 commands }

/-- The statistics with another number of clients. -/
def ServerStats.setClients (stats : ServerStats) (clients : Int64) :
    ServerStats :=
  { stats with connectedClients := clients }

theorem ServerStats.counting_zero
    (stats : ServerStats) :
    stats.counting 0 = stats := by
  simp [counting, toInt64]

theorem ServerStats.counting_counting
    (stats : ServerStats)
    (first second : Nat) :
    (stats.counting first).counting second =
      stats.counting (first + second) := by
  simp only [counting, toInt64_add, Int64.add_assoc]

/-- A command counts if its handler returns. -/
theorem Backend.answer_stats
    (now : TimePoint)
    (backend : Backend)
    (cmd : Command) :
    (backend.answer now cmd).2.stats =
      backend.stats.counting
        (if (Dispatch.mk now backend cmd).returned then 1 else 0) := by
  have frame := (backend.dispatch_frame now cmd).2
  unfold answer Dispatch.returned Dispatch.outcome
  dsimp only
  rcases outcome : backend.dispatch now cmd with ⟨_ | reply, after⟩
  all_goals
    rw [outcome] at frame
    dsimp only at frame ⊢
    rw [frame]
  · exact backend.stats.counting_zero.symm
  · rfl

/-- A read counts the commands that it dispatches and that return. -/
theorem Connection.handleData_stats
    (connection : Connection)
    (server : Server)
    (chunk : Bytes) :
    let turn := connection.handleData reserve clock server chunk
    turn.server.backend.stats =
      server.backend.stats.counting
        (turn.dispatched.countP Dispatch.returned) := by
  refine handleData_records reserve clock
    (fun turn =>
      turn.server.backend.stats =
        server.backend.stats.counting
          (turn.dispatched.countP Dispatch.returned))
    ?_ ?_ server.backend.stats.counting_zero.symm chunk
  · intro turn value next recorded _ _ counted
    cases recorded with
    | protested _ same _ dispatched | identified _ _ _ same _ dispatched
    | refused _ _ _ _ same _ dispatched =>
        rw [same, dispatched]
        exact counted
    | subscribed _ _ _ _ _ _ same _ dispatched =>
        rw [same, dispatched]
        exact counted
    | executed cmd now logged _ _ _ _ _ logs same _ dispatched =>
        rw [same, dispatched, List.countP_append, List.countP_singleton,
          ← ServerStats.counting_counting, ← counted,
          ← Server.backend_of_logWrite logs]
        exact logged.backend.answer_stats now cmd
  · intro turn next same counted
    rw [same.server, same.dispatched]
    exact counted

end Counting

end Vortek
