import Vortek.Session

namespace Vortek

open IncrementalDecoder

/-!
# Authentication

A connection of a server with a password answers every command with a fixed
error until it has sent that password.  Up to then nothing it sends reaches the
server, and nothing of the server shows in its replies: two servers answer the
same bytes alike (`Turn.Locked`, `SessionInput.Alike`).
-/

/-- The command that gives the password. -/
def authCommand (password : Bytes) : Command :=
  ⟨ascii "AUTH", [password]⟩

/-- The answer to any other command before it. -/
def refusal (cmd : Command) : RespValue :=
  if cmd.name = ascii "AUTH" then
    if cmd.args.length = 1 then
      err "ERR invalid password"
    else
      err "ERR wrong number of arguments for 'AUTH' command"
  else
    err "NOAUTH Authentication required."

/-- A turn of a connection that has not given the password. -/
structure Turn.Locked
    (password : Bytes)
    (server : Server)
    (turn : Turn) :
    Prop where
  secured : password ≠ []
  requirepass : turn.connection.requirepass = password
  refused : turn.connection.authenticated = false
  server : turn.server = server
  dispatched : turn.dispatched = []

/-- The password has been given in this turn. -/
def Turn.Unlocks (password : Bytes) (turn : Turn) : Prop :=
  authCommand password ∈ turn.answered.map Prod.fst

/-- AUTH on a connection that has not given the password. -/
theorem Connection.handleAuth_eq
    {connection : Connection}
    {cmd : Command}
    (secured : connection.requirepass ≠ [])
    (auth : cmd.name = ascii "AUTH") :
    connection.handleAuth cmd =
      if cmd = authCommand connection.requirepass then
        (.simpleString (ascii "OK"),
          { connection with authenticated := true })
      else
        (refusal cmd, connection) := by
  obtain ⟨name, args⟩ := cmd
  simp only at auth
  subst auth
  have notEmpty : connection.requirepass.isEmpty = false := by
    simpa using secured
  unfold handleAuth
  dsimp only
  split
  · rename_i password
    simp only [notEmpty, Bool.false_eq_true, if_false, authCommand,
      Command.mk.injEq, List.cons.injEq, and_true, true_and]
    by_cases same : password = connection.requirepass
    · simp [same]
    · simp [same, refusal]
  · rename_i several
    have length : args.length ≠ 1 := by
      intro one
      obtain ⟨password, shape⟩ := List.length_eq_one_iff.mp one
      exact several password shape
    have other : args ≠ [connection.requirepass] := by
      rintro rfl
      exact length rfl
    simp [authCommand, other, refusal, length]

section Turns

variable {reserve : Reserve} {clock : Nat → TimePoint}
variable {password : Bytes} {server : Server} {turn : Turn}

/-- The turn after the password has been given. -/
def Turn.unlock (turn : Turn) : Turn :=
  { turn with
    connection := { turn.connection with authenticated := true } }.reply
      (authCommand turn.connection.requirepass)
      (.simpleString (ascii "OK"))

/-- The turn after something that is not a command. -/
def Turn.protest (turn : Turn) : Turn :=
  { turn with
    responses := turn.responses ++
      (err "ERR protocol error: expected command array").serialize }

/-- Before the password has been given, a value is refused or unlocks. -/
theorem Turn.Locked.serve_eq
    (locked : turn.Locked password server)
    (value : RespValue) :
    turn.serve reserve clock value =
      match parseCommand value with
      | none => .leave turn.protest
      | some cmd =>
          .proceed
            (if cmd = authCommand password then
              turn.unlock
            else
              turn.reply cmd (refusal cmd)) := by
  obtain ⟨secured, rfl, refused, -, -⟩ := locked
  unfold serve
  cases parseCommand value with
  | none =>
      rfl
  | some cmd =>
      dsimp only
      by_cases auth : cmd.name = ascii "AUTH"
      · rw [if_pos auth, Connection.handleAuth_eq secured auth]
        by_cases same : cmd = authCommand turn.connection.requirepass
        · subst same
          simp only [if_true]
          rfl
        · simp only [same, if_false]
      · have other : cmd ≠ authCommand turn.connection.requirepass := by
          rintro rfl
          exact auth rfl
        simp only [if_neg auth, if_pos refused, if_neg other, refusal]

/-- A refused command leaves the turn locked. -/
theorem Turn.Locked.reply
    (locked : turn.Locked password server)
    (cmd : Command)
    (value : RespValue) :
    (turn.reply cmd value).Locked password server :=
  ⟨locked.secured, locked.requirepass, locked.refused, locked.server,
    locked.dispatched⟩

theorem Turn.Locked.protest
    (locked : turn.Locked password server) :
    turn.protest.Locked password server :=
  ⟨locked.secured, locked.requirepass, locked.refused, locked.server,
    locked.dispatched⟩

theorem Turn.Locked.finish
    (locked : turn.Locked password server) :
    turn.finish.Locked password server := by
  obtain ⟨transport, same⟩ := turn.finish_connection_eq
  refine ⟨locked.secured, ?_, ?_, ?_, ?_⟩
  · rw [same]
    exact locked.requirepass
  · rw [same]
    exact locked.refused
  · rw [finish_server]
    exact locked.server
  · rw [finish_dispatched]
    exact locked.dispatched

/-- The end of a turn does not use the server. -/
theorem Turn.finish_setServer
    (turn : Turn)
    (other : Server) :
    ({ turn with server := other } : Turn).finish =
      { turn.finish with server := other } := by
  unfold finish
  split <;> rfl

theorem Turn.locked_begin
    {connection : Connection}
    (secured : password ≠ [])
    (requirepass : connection.requirepass = password)
    (refused : connection.authenticated = false)
    (server : Server) :
    (connection.begin server).Locked password server :=
  ⟨secured, requirepass, refused, rfl, rfl⟩

/-- What serving a value adds to the records, and what it keeps. -/
structure Turn.Extends (turn next : Turn) : Prop where
  records :
    ∃ answers dispatches,
      next.answered = turn.answered ++ answers ∧
        next.dispatched = turn.dispatched ++ dispatches ∧
        (dispatches.map Dispatch.cmd).Sublist (answers.map Prod.fst)
  authenticated :
    turn.connection.authenticated = true →
    next.connection.authenticated = true

/-- A command is answered without being dispatched. -/
theorem Turn.extends_of_answered
    {turn next : Turn}
    {answers : List (Command × List RespValue)}
    (answered : next.answered = turn.answered ++ answers)
    (dispatched : next.dispatched = turn.dispatched)
    (authenticated :
      turn.connection.authenticated = true →
      next.connection.authenticated = true) :
    turn.Extends next :=
  ⟨⟨answers, [], answered, by rw [dispatched, List.append_nil],
    List.nil_sublist _⟩, authenticated⟩

theorem Turn.execute_extends
    (turn : Turn)
    (now : TimePoint)
    (cmd : Command) :
    turn.Extends (turn.execute reserve now cmd).state := by
  unfold execute
  split
  · exact extends_of_answered rfl rfl id
  · dsimp only
    split <;>
      exact ⟨⟨_, _, rfl, rfl, List.Sublist.refl _⟩, id⟩

/-- Serving a value only adds to the answers. -/
theorem Turn.serve_extends
    (reserve : Reserve)
    (clock : Nat → TimePoint)
    (turn : Turn)
    (value : RespValue) :
    turn.Extends (turn.serve reserve clock value).state := by
  unfold serve
  split
  · exact extends_of_answered (List.append_nil _).symm rfl id
  · split
    · exact extends_of_answered rfl rfl
        Connection.handleAuth_authenticated
    · split
      · exact extends_of_answered rfl rfl id
      · split
        · exact extends_of_answered rfl rfl id
        · split
          · unfold unsubscribe
            split <;> exact extends_of_answered rfl rfl id
          · exact execute_extends turn _ _

theorem Turn.Unlocks.serve
    (unlocks : turn.Unlocks password)
    (value : RespValue) :
    (turn.serve reserve clock value).state.Unlocks password := by
  obtain ⟨answers, _, answered, -⟩ :=
    (turn.serve_extends reserve clock value).records
  unfold Unlocks at unlocks ⊢
  rw [answered, List.map_append]
  exact List.mem_append_left _ unlocks

theorem Turn.unlocks_unlock
    (requirepass : turn.connection.requirepass = password) :
    turn.unlock.Unlocks password := by
  subst requirepass
  exact List.mem_map_of_mem
    (List.mem_append_right _ (List.mem_singleton.mpr rfl))

/-- A value that is served unlocks the connection or leaves it locked. -/
theorem Turn.Locked.serve
    (locked : turn.Locked password server)
    (value : RespValue) :
    (turn.serve reserve clock value).state.Unlocks password ∨
      (turn.serve reserve clock value).state.Locked password server := by
  rw [locked.serve_eq]
  cases parseCommand value with
  | none =>
      exact Or.inr locked.protest
  | some cmd =>
      dsimp only [Control.state_proceed]
      split
      · exact Or.inl (unlocks_unlock locked.requirepass)
      · exact Or.inr (locked.reply cmd _)

/-- All commands of the turn have been refused. -/
def Turn.AllRefused (password : Bytes) (turn : Turn) : Prop :=
  ∀ answer ∈ turn.answered,
    answer.1 ≠ authCommand password ∧ answer.2 = [refusal answer.1]

theorem Turn.AllRefused.not_unlocks
    (all : turn.AllRefused password) :
    ¬turn.Unlocks password := by
  intro unlocks
  obtain ⟨answer, member, given⟩ := List.mem_map.mp unlocks
  exact (all answer member).1 given

theorem Turn.AllRefused.reply
    {cmd : Command}
    (all : turn.AllRefused password)
    (other : cmd ≠ authCommand password) :
    (turn.reply cmd (refusal cmd)).AllRefused password := by
  intro answer member
  rcases List.mem_append.mp member with earlier | last
  · exact all answer earlier
  · rw [List.mem_singleton.mp last]
    exact ⟨other, rfl⟩

/-- Another server at another time, and otherwise the same turn. -/
structure Turn.Mirrors
    (password : Bytes)
    (server other : Server)
    (turn copy : Turn) :
    Prop where
  locked : turn.Locked password server
  refused : turn.AllRefused password
  copies : copy = { turn with server := other }

/-- Until it is unlocked, a turn does not depend on the server. -/
theorem Turn.Mirrors.serve
    {other : Server}
    {copy : Turn}
    (mirrors : Mirrors password server other turn copy)
    (elsewhen : Nat → TimePoint)
    (value : RespValue) :
    (turn.serve reserve clock value).state.Unlocks password ∨
      (turn.serve reserve clock value).Agree
        (Mirrors password server other)
        (copy.serve reserve elsewhen value) := by
  obtain ⟨locked, refused, rfl⟩ := mirrors
  have copied : ({ turn with server := other } : Turn).Locked password other :=
    ⟨locked.secured, locked.requirepass, locked.refused, rfl,
      locked.dispatched⟩
  rw [locked.serve_eq, copied.serve_eq]
  cases parseCommand value with
  | none =>
      exact Or.inr (.leave ⟨locked.protest, refused, rfl⟩)
  | some cmd =>
      dsimp only
      by_cases given : cmd = authCommand password
      · left
        rw [if_pos given]
        exact unlocks_unlock locked.requirepass
      · rw [if_neg given, if_neg given]
        exact Or.inr (.proceed
          ⟨locked.reply cmd _, refused.reply given, rfl⟩)

/-- Nothing reaches the socket while a locked turn serves a value. -/
theorem Turn.Locked.serveCalls_eq
    (locked : turn.Locked password server)
    (value : RespValue) :
    turn.serveCalls value = [] := by
  unfold serveCalls
  cases parseCommand value with
  | none =>
      rfl
  | some cmd =>
      simp only [locked.refused, if_true, ite_self]

/--
The commands before the password have been refused, and only commands behind it
have been dispatched.
-/
inductive Turn.RefusesFirst (password : Bytes) (turn : Turn) : Prop where
  | closed
      (refused : turn.connection.authenticated = false)
      (all : turn.AllRefused password)
      (dispatched : turn.dispatched = [])
  | opened
      (before after : List (Command × List RespValue))
      (answered :
        turn.answered =
          before ++
            (authCommand password, [.simpleString (ascii "OK")]) :: after)
      (refused :
        ∀ answer ∈ before,
          answer.1 ≠ authCommand password ∧
            answer.2 = [refusal answer.1])
      (dispatched :
        (turn.dispatched.map Dispatch.cmd).Sublist
          (after.map Prod.fst))
      (authenticated : turn.connection.authenticated = true)

/-- Commands before AUTH are refused. -/
theorem Turn.RefusesFirst.serve
    (secured : password ≠ [])
    (requirepass : turn.connection.requirepass = password)
    (first : turn.RefusesFirst password)
    (value : RespValue) :
    (turn.serve reserve clock value).state.RefusesFirst password := by
  cases first with
  | closed refused all nothing =>
      have locked : turn.Locked password turn.server :=
        ⟨secured, requirepass, refused, rfl, nothing⟩
      rw [locked.serve_eq]
      cases parseCommand value with
      | none =>
          exact .closed refused all nothing
      | some cmd =>
          dsimp only [Control.state_proceed]
          by_cases given : cmd = authCommand password
          · rw [if_pos given]
            subst requirepass
            refine .opened turn.answered [] rfl all ?_ rfl
            change (turn.dispatched.map _).Sublist _
            rw [nothing]
            exact List.nil_sublist _
          · rw [if_neg given]
            exact .closed refused (all.reply given) nothing
  | opened before after answered refused dispatched authenticated =>
      obtain ⟨⟨answers, dispatches, more, further, later⟩, stays⟩ :=
        turn.serve_extends reserve clock value
      refine .opened before (after ++ answers) ?_ refused ?_
        (stays authenticated)
      · rw [more, answered, List.append_assoc, List.cons_append]
      · rw [further, List.map_append, List.map_append]
        exact dispatched.append later

/-- A turn is unlocked exactly if the password has been given in it. -/
theorem Turn.RefusesFirst.authenticated_of_unlocks
    (first : turn.RefusesFirst password)
    (unlocks : turn.Unlocks password) :
    turn.connection.authenticated = true := by
  cases first with
  | closed refused all nothing =>
      exact absurd unlocks all.not_unlocks
  | opened before after answered refused dispatched authenticated =>
      exact authenticated

theorem Turn.RefusesFirst.finish
    (first : turn.RefusesFirst password) :
    turn.finish.RefusesFirst password := by
  have same := (Turn.finish_connection turn).2
  cases first with
  | closed refused all nothing =>
      refine .closed (same.trans refused) ?_ ?_
      · unfold AllRefused
        rw [finish_answered]
        exact all
      · rw [finish_dispatched]
        exact nothing
  | opened before after answered refused dispatched authenticated =>
      refine .opened before after ?_ refused ?_ (same.trans authenticated)
      · rw [finish_answered]
        exact answered
      · rw [finish_dispatched]
        exact dispatched

end Turns

section Reads

variable {reserve : Reserve} {clock : Nat → TimePoint}
variable {password : Bytes} (connection : Connection)
variable (secured : password ≠ [])
variable (requirepass : connection.requirepass = password)
variable (refused : connection.authenticated = false)

include secured requirepass refused

/-- The loop of a read unlocks, or is the same with any other server. -/
theorem Connection.dataTurn_mirrors
    (elsewhen : Nat → TimePoint)
    (server other : Server)
    (chunk : Bytes) :
    let turn := connection.dataTurn reserve clock server chunk
    turn.Unlocks password ∨
      Turn.Mirrors password server other turn
        (connection.dataTurn reserve elsewhen other chunk) := by
  have begun :
      Turn.Mirrors password server other (connection.begin server)
        (connection.begin other) :=
    ⟨Turn.locked_begin secured requirepass refused server,
      fun _ member => absurd member List.not_mem_nil, rfl⟩
  have looped :=
    consumeAll_inStep (RespParser.decode reserve)
      (Turn.serve reserve clock) (Turn.serve reserve elsewhen)
      (Turn.Mirrors password server other) (Turn.Unlocks password)
      (fun turn value unlocks => unlocks.serve value)
      (fun turn copy value mirrors => mirrors.serve elsewhen value)
      begun (connection.parser.buf ++ chunk)
  rw [← RespParser.feedEach_eq_consumeAll,
    ← RespParser.feedEach_eq_consumeAll] at looped
  unfold dataTurn
  dsimp only at looped ⊢
  generalize RespParser.feedEach reserve (Turn.serve reserve clock)
    (connection.begin server) connection.parser chunk = loop at looped ⊢
  generalize RespParser.feedEach reserve (Turn.serve reserve elsewhen)
    (connection.begin other) connection.parser chunk = copy at looped ⊢
  obtain ⟨state, rest, ending⟩ := loop
  obtain ⟨copied, left, finished⟩ := copy
  rcases looped with unlocks | ⟨mirrors, sameRest, sameEnding⟩
  · left
    cases ending <;> exact unlocks
  · right
    dsimp only at mirrors sameRest sameEnding ⊢
    subst sameRest sameEnding
    obtain ⟨⟨_, pass, closed, same, nothing⟩, all, rfl⟩ := mirrors
    cases ending <;>
      exact ⟨⟨secured, pass, closed, same, nothing⟩, all, rfl⟩

/-- The loop of a read unlocks, or makes no call to the socket. -/
theorem Connection.served_calls_eq_nil
    (server : Server)
    (chunk : Bytes) :
    (connection.dataTurn reserve clock server chunk).Unlocks password ∨
      ((connection.served reserve clock server chunk).flatMap
        fun visit => visit.1.serveCalls visit.2) = [] := by
  have looped :=
    dataTurn_invariant reserve clock
      (fun turn seen =>
        turn.Unlocks password ∨
          turn.Locked password server ∧
            (seen.flatMap fun visit => visit.1.serveCalls visit.2) = [])
      ?_ ?_
      (Or.inr ⟨Turn.locked_begin secured requirepass refused server, rfl⟩)
      chunk
  · exact looped.imp_right fun both => both.2
  · intro turn seen value before
    rcases before with unlocks | ⟨locked, nothing⟩
    · exact Or.inl (unlocks.serve value)
    · rw [List.flatMap_append, nothing, List.flatMap_singleton,
        locked.serveCalls_eq]
      exact (locked.serve value).imp_right fun after => ⟨after, rfl⟩
  · rintro turn seen responses raised parser (unlocks | ⟨locked, nothing⟩)
    · exact Or.inl unlocks
    · obtain ⟨_, pass, gate, same, none⟩ := locked
      exact Or.inr ⟨⟨secured, pass, gate, same, none⟩, nothing⟩

omit secured requirepass refused in
/-- The answer to a request that is too long does not use the server. -/
theorem Connection.refuseRequest_eq
    (connection : Connection)
    (server other : Server) :
    connection.refuseRequest other =
      { connection.refuseRequest server with server := other } := by
  unfold refuseRequest
  generalize (err "ERR max request size exceeded").serialize = answer
  rfl

omit secured requirepass refused in
theorem Connection.refuseRequest_connection
    (connection : Connection)
    (server : Server) :
    (connection.refuseRequest server).connection.requirepass =
        connection.requirepass ∧
      (connection.refuseRequest server).connection.authenticated =
        connection.authenticated ∧
      (connection.refuseRequest server).server = server ∧
      (connection.refuseRequest server).dispatched = [] := by
  unfold refuseRequest
  generalize (err "ERR max request size exceeded").serialize = answer
  exact ⟨rfl, rfl, rfl, rfl⟩

theorem Connection.handleData_locked
    (reserve : Reserve)
    (clock elsewhen : Nat → TimePoint)
    (server other : Server)
    (chunk : Bytes) :
    let turn := connection.handleData reserve clock server chunk
    turn.Unlocks password ∨
      turn.Locked password server ∧
        connection.handleData reserve elsewhen other chunk =
          { turn with server := other } ∧
        connection.handleCalls reserve elsewhen other chunk =
          connection.handleCalls reserve clock server chunk := by
  rw [handleData_eq_dataTurn, handleData_eq_dataTurn]
  unfold handleCalls
  cases connection.exceedsRequest chunk with
  | true =>
      obtain ⟨pass, gate, same, nothing⟩ :=
        connection.refuseRequest_connection server
      simp only [if_true, and_true]
      exact Or.inr
        ⟨⟨secured, pass.trans requirepass, gate.trans refused, same,
          nothing⟩, connection.refuseRequest_eq server other⟩
  | false =>
      simp only [Bool.false_eq_true, if_false]
      rcases connection.dataTurn_mirrors secured requirepass refused
          elsewhen server other chunk with unlocks | mirrors
      · left
        unfold Turn.Unlocks
        rw [Turn.finish_answered]
        exact unlocks
      · have here :=
          (connection.served_calls_eq_nil secured requirepass refused
            server chunk).resolve_left mirrors.refused.not_unlocks
        have there :=
          (connection.served_calls_eq_nil secured requirepass refused
            other chunk).resolve_left
              (by rw [mirrors.copies]; exact mirrors.refused.not_unlocks)
        rw [here, there, mirrors.copies]
        exact Or.inr ⟨mirrors.locked.finish,
          Turn.finish_setServer _ other, rfl⟩

/-- What is before the password in a read is refused. -/
theorem Connection.handleData_refusesFirst
    (reserve : Reserve)
    (clock : Nat → TimePoint)
    (server : Server)
    (chunk : Bytes) :
    (connection.handleData reserve clock server chunk).RefusesFirst
      password := by
  have begun : (connection.begin server).RefusesFirst password :=
    .closed refused (fun _ member => absurd member List.not_mem_nil) rfl
  have looped :=
    dataTurn_invariant reserve clock
      (fun turn _ =>
        turn.connection.requirepass = password ∧
          turn.RefusesFirst password)
      ?_ ?_ ⟨requirepass, begun⟩ chunk
  · rw [handleData_eq_dataTurn]
    split
    · obtain ⟨-, gate, -, nothing⟩ :=
        connection.refuseRequest_connection server
      exact .closed (gate.trans refused)
        (fun _ member => absurd member List.not_mem_nil) nothing
    · exact looped.2.finish
  · rintro turn - value ⟨pass, first⟩
    exact ⟨(turn.serve_calls value).requirepass.trans pass,
      first.serve secured pass value⟩
  · rintro turn - responses raised parser ⟨pass, first⟩
    refine ⟨pass, ?_⟩
    cases first with
    | closed refused all nothing =>
        exact .closed refused all nothing
    | opened before after answered refused dispatched authenticated =>
        exact .opened before after answered refused dispatched
          authenticated

end Reads

/-- A read does not end an authentication. -/
theorem Connection.handleData_authenticated
    {connection : Connection}
    (authenticated : connection.authenticated = true)
    (reserve : Reserve)
    (clock : Nat → TimePoint)
    (server : Server)
    (chunk : Bytes) :
    (connection.handleData reserve clock server
      chunk).connection.authenticated = true := by
  rw [handleData_eq_dataTurn]
  split
  · exact (connection.refuseRequest_connection server).2.1.trans
      authenticated
  · refine (Turn.finish_connection _).2.trans ?_
    exact dataTurn_invariant reserve clock
      (fun turn _ => turn.connection.authenticated = true)
      (fun turn _ value => (turn.serve_extends reserve clock
        value).authenticated)
      (fun _ _ _ _ _ before => before) authenticated chunk

/-- The same handler with the same bytes, at another time and server. -/
inductive SessionInput.Alike : SessionInput → SessionInput → Prop where
  | readDone
      (server other : Server)
      (clock elsewhen : Nat → TimePoint)
      (chunk : Bytes) :
      Alike (.readDone server clock chunk) (.readDone other elsewhen chunk)
  | refl (input : SessionInput) :
      Alike input input

namespace Session

variable {reserve : Reserve} {password : Bytes} {session : Session}

/-- The reads of a handler, each with the server it found. -/
def readsOf (reserve : Reserve) (session : Session) :
    SessionInput → List (Server × Turn)
  | .readDone server clock chunk =>
      if session.reads = 0 then
        []
      else
        [(server, session.dataTurn reserve clock server chunk)]
  | _ => []

/-- The reads of a run. -/
def readsAlong (reserve : Reserve) :
    Session → List SessionInput → List (Server × Turn)
  | _, [] => []
  | session, input :: later =>
      session.readsOf reserve input ++
        readsAlong reserve (session.handle reserve input) later

/-- The session belongs to a server with a password and has not given it. -/
structure Locked (password : Bytes) (session : Session) : Prop where
  secured : password ≠ []
  requirepass : session.connection.requirepass = password
  refused : session.connection.authenticated = false

theorem locked_start
    (secured : password ≠ [])
    (id maxRequestBytes maxPendingWriteBytes idleTimeout : Nat) :
    (start
      (Connection.create id password maxRequestBytes
        maxPendingWriteBytes) idleTimeout).Locked password := by
  refine ⟨secured, rfl, ?_⟩
  change password.isEmpty = false
  simpa using secured

/-- A read of a locked session unlocks it, or could have met any server. -/
theorem Locked.readDone
    (locked : session.Locked password)
    (clock elsewhen : Nat → TimePoint)
    (server other : Server)
    (chunk : Bytes) :
    let turn := session.dataTurn reserve clock server chunk
    turn.Unlocks password ∨
      turn.Locked password server ∧
        session.readDone reserve elsewhen other chunk =
          session.readDone reserve clock server chunk := by
  rcases session.beginData.connection.handleData_locked locked.secured
      locked.requirepass locked.refused reserve clock elsewhen server
      other chunk with unlocks | ⟨after, sameTurn, sameCalls⟩
  · exact Or.inl unlocks
  · refine Or.inr ⟨after, ?_⟩
    unfold Session.readDone dataTurn
    dsimp only
    rw [sameTurn, sameCalls]

/-- A handler unlocks a session, or does not depend on the server. -/
theorem Locked.handle
    (locked : session.Locked password)
    (reserve : Reserve)
    (input : SessionInput) :
    (∃ read ∈ session.readsOf reserve input, read.2.Unlocks password) ∨
      (session.handle reserve input).Locked password ∧
        (∀ read ∈ session.readsOf reserve input,
          read.2.server = read.1 ∧ read.2.dispatched = []) ∧
        ∀ other,
          input.Alike other →
          session.handle reserve other = session.handle reserve input := by
  by_cases idle : session.readsOf reserve input = []
  · rcases session.handle_connection reserve input with
      ⟨server, clock, chunk, rfl, outstanding, -⟩ | ⟨transport, same⟩
    · simp [readsOf, outstanding] at idle
    · rw [idle]
      refine Or.inr ⟨⟨locked.secured, ?_, ?_⟩,
        fun _ member => absurd member List.not_mem_nil, ?_⟩
      · rw [same]
        exact locked.requirepass
      · rw [same]
        exact locked.refused
      · intro other alike
        cases alike with
        | refl =>
            rfl
        | readDone server other clock elsewhen chunk =>
            have none : session.reads = 0 := by
              simpa [readsOf] using idle
            simp only [Session.handle, none, if_true]
  · cases input with
    | readDone server clock chunk =>
        have outstanding : session.reads ≠ 0 := by
          simpa [readsOf] using idle
        simp only [readsOf, outstanding, if_false, List.mem_singleton,
          exists_eq_left, forall_eq]
        by_cases unlocks :
            (session.dataTurn reserve clock server chunk).Unlocks password
        · exact Or.inl unlocks
        · have elsewhere
              (elsewhen : Nat → TimePoint)
              (other : Server) :=
            (locked.readDone clock elsewhen server other
              chunk).resolve_left unlocks
          have after := (elsewhere clock server).1
          have same :=
            session.readDone_connection reserve clock server chunk
          refine Or.inr ⟨⟨locked.secured, ?_, ?_⟩,
            ⟨after.server, after.dispatched⟩, ?_⟩
          · simp only [Session.handle, outstanding, if_false, same]
            exact after.requirepass
          · simp only [Session.handle, outstanding, if_false, same]
            exact after.refused
          · intro input alike
            cases alike with
            | refl =>
                rfl
            | readDone _ other _ elsewhen _ =>
                simp only [Session.handle, outstanding, if_false]
                exact (elsewhere elsewhen other).2
    | readFailed | writeDone | writeFailed | waitExpired | waitAborted
    | push =>
        exact absurd rfl idle

/-- No read of the run gives the password. -/
def Unauthenticated
    (reserve : Reserve)
    (password : Bytes)
    (session : Session)
    (inputs : List SessionInput) :
    Prop :=
  ∀ read ∈ session.readsAlong reserve inputs,
    ∀ answer ∈ read.2.answered, answer.1 ≠ authCommand password

/-- A session that never authenticates touches no server. -/
theorem Locked.after
    (locked : session.Locked password)
    {inputs : List SessionInput}
    (never : session.Unauthenticated reserve password inputs) :
    (∀ read ∈ session.readsAlong reserve inputs,
        read.2.server = read.1 ∧ read.2.dispatched = []) ∧
      ∀ others,
        List.Forall₂ SessionInput.Alike inputs others →
        session.after reserve others = session.after reserve inputs := by
  induction inputs generalizing session with
  | nil =>
      refine ⟨fun _ member => absurd member List.not_mem_nil, ?_⟩
      intro others alike
      cases alike
      rfl
  | cons input later inductionHypothesis =>
      obtain ⟨now, then_⟩ := List.forall_mem_append.mp never
      rcases locked.handle reserve input with
        ⟨read, member, unlocks⟩ | ⟨next, untouched, same⟩
      · obtain ⟨answer, given, auth⟩ := List.mem_map.mp unlocks
        exact absurd auth (now read member answer given)
      · obtain ⟨rest, agree⟩ := inductionHypothesis next then_
        refine ⟨List.forall_mem_append.mpr ⟨untouched, rest⟩, ?_⟩
        intro others alike
        cases alike with
        | cons head tail =>
            change Session.after reserve (session.handle reserve _) _ = _
            rw [same _ head]
            exact agree _ tail

/-- A handler keeps the password asked for, and an authentication. -/
theorem handle_gate
    (reserve : Reserve)
    (session : Session)
    (input : SessionInput) :
    (session.handle reserve input).connection.requirepass =
        session.connection.requirepass ∧
      (session.connection.authenticated = true →
        (session.handle reserve input).connection.authenticated = true) := by
  rcases session.handle_connection reserve input with
    ⟨server, clock, chunk, -, -, same⟩ | ⟨transport, same⟩
  · rw [same]
    refine ⟨?_, fun authenticated => ?_⟩
    · exact (session.beginData.connection.handleData_afterData reserve
        clock server chunk).requirepass
    · have begun : session.beginData.connection.authenticated = true :=
        authenticated
      exact Connection.handleData_authenticated begun reserve clock
        server chunk
  · rw [same]
    exact ⟨rfl, fun authenticated => authenticated⟩

/-- Handlers keep the password asked for, and an authentication. -/
theorem after_gate
    (reserve : Reserve)
    (session : Session)
    (inputs : List SessionInput) :
    (session.after reserve inputs).connection.requirepass =
        session.connection.requirepass ∧
      (session.connection.authenticated = true →
        (session.after reserve inputs).connection.authenticated =
          true) := by
  induction inputs generalizing session with
  | nil =>
      exact ⟨rfl, fun authenticated => authenticated⟩
  | cons input later inductionHypothesis =>
      obtain ⟨pass, gate⟩ := session.handle_gate reserve input
      obtain ⟨passes, gates⟩ :=
        inductionHypothesis (session.handle reserve input)
      exact ⟨passes.trans pass, fun authenticated =>
        gates (gate authenticated)⟩

/-- A read that has been given the password leaves an authentication. -/
theorem authenticated_of_unlocks
    (secured : password ≠ [])
    (requirepass : session.connection.requirepass = password)
    {input : SessionInput}
    {read : Server × Turn}
    (member : read ∈ session.readsOf reserve input)
    (unlocks : read.2.Unlocks password) :
    (session.handle reserve input).connection.authenticated = true := by
  cases already : session.connection.authenticated with
  | true =>
      exact (session.handle_gate reserve input).2 already
  | false =>
      have locked : session.Locked password :=
        ⟨secured, requirepass, already⟩
      cases input with
      | readDone server clock chunk =>
          by_cases outstanding : session.reads = 0
          · simp [readsOf, outstanding] at member
          · simp only [readsOf, outstanding, if_false,
              List.mem_singleton] at member
            subst member
            simp only [Session.handle, outstanding, if_false,
              session.readDone_connection]
            exact (session.beginData.connection.handleData_refusesFirst
              locked.secured locked.requirepass locked.refused reserve
              clock server chunk).authenticated_of_unlocks unlocks
      | readFailed | writeDone | writeFailed | waitExpired | waitAborted
      | push =>
          exact absurd member List.not_mem_nil

theorem authenticated_after
    (secured : password ≠ [])
    (requirepass : session.connection.requirepass = password)
    {inputs : List SessionInput}
    {read : Server × Turn}
    (member : read ∈ session.readsAlong reserve inputs)
    (unlocks : read.2.Unlocks password) :
    (session.after reserve inputs).connection.authenticated = true := by
  induction inputs generalizing session with
  | nil =>
      exact absurd member List.not_mem_nil
  | cons input later inductionHypothesis =>
      rcases List.mem_append.mp member with now | then_
      · exact ((session.handle reserve input).after_gate reserve later).2
          (authenticated_of_unlocks secured requirepass now unlocks)
      · exact inductionHypothesis
          ((session.handle_gate reserve input).1.trans requirepass) then_

/-- Before the password is given nothing is dispatched, the server stays as
it is and the replies do not depend on it; the password opens the connection
for good, and only for what comes after it. -/
theorem authentication_required
    (reserve : Reserve)
    (id maxRequestBytes maxPendingWriteBytes idleTimeout : Nat)
    (password : Bytes)
    (secured : password ≠ []) :
    let session :=
      start
        (Connection.create id password maxRequestBytes
          maxPendingWriteBytes) idleTimeout
    (∀ inputs,
      session.Unauthenticated reserve password inputs →
      (∀ read ∈ session.readsAlong reserve inputs,
        read.2.server = read.1 ∧ read.2.dispatched = []) ∧
      ∀ others,
        List.Forall₂ SessionInput.Alike inputs others →
        session.after reserve others = session.after reserve inputs) ∧
    (∀ inputs later,
      ¬session.Unauthenticated reserve password inputs →
      (session.after reserve
        (inputs ++ later)).connection.authenticated = true) ∧
    ∀ inputs,
      (session.after reserve inputs).connection.authenticated = false →
      ∀ clock server chunk,
        ((session.after reserve inputs).dataTurn reserve clock server
          chunk).RefusesFirst password := by
  intro session
  have locked : session.Locked password :=
    locked_start secured id maxRequestBytes maxPendingWriteBytes idleTimeout
  refine ⟨fun inputs never => locked.after never, ?_, ?_⟩
  · intro inputs later given
    unfold Unauthenticated at given
    push Not at given
    obtain ⟨read, member, answer, answered, auth⟩ := given
    have unlocks : read.2.Unlocks password :=
      List.mem_map.mpr ⟨answer, answered, auth⟩
    have joined :
        session.after reserve (inputs ++ later) =
          (session.after reserve inputs).after reserve later :=
      List.foldl_append
    rw [joined]
    exact ((session.after reserve inputs).after_gate reserve later).2
      (authenticated_after secured locked.requirepass member unlocks)
  · intro inputs refused clock server chunk
    exact (session.after reserve
      inputs).beginData.connection.handleData_refusesFirst secured
        ((session.after_gate reserve inputs).1.trans locked.requirepass)
        refused reserve clock server chunk

/-- A server without a broker and one with a broker refuse a GET alike. -/
theorem authentication_required_get :
    let session :=
      start (Connection.create 1 (ascii "pw") 100 100) 0
    let chunk := ascii "*2\r\n$3\r\nGET\r\n$1\r\nk\r\n"
    let server : Server := ⟨Backend.initial, none⟩
    let other : Server :=
      ⟨{ Backend.initial with broker := some PubSubBroker.empty }, none⟩
    ascii "pw" ≠ [] ∧
      session.Unauthenticated (fun _ => none) (ascii "pw")
        [.readDone server (fun _ => 0) chunk] ∧
      session.after (fun _ => none)
          [.readDone other (fun _ => 100) chunk] =
        session.after (fun _ => none)
          [.readDone server (fun _ => 0) chunk] := by
  intro session chunk server other
  have never :
      session.Unauthenticated (fun _ => none) (ascii "pw")
        [.readDone server (fun _ => 0) chunk] := by
    unfold Unauthenticated
    decide +kernel
  have required :=
    authentication_required (fun _ => none) 1 100 100 0 (ascii "pw")
      (by decide)
  exact ⟨by decide, never,
    (required.1 _ never).2 _
      (.cons (.readDone server other (fun _ => 0) (fun _ => 100) chunk)
        .nil)⟩

end Session

end Vortek
