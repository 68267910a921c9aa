import Vortek.Pipelining
import Vortek.TypeErrors

namespace Vortek

open IncrementalDecoder

/-!
# Exceptions in a pipeline

The `catch` of `handle_data` surrounds the whole loop and resets the parser, so
an exception of one command drops the commands behind it.  Every command of a
read is executed and answered exactly if no command but the last one throws, and
by `dispatch_throws_iff` that is a question of the types under the keys that the
commands find.
-/

/-- The state after a command other than SUBSCRIBE and UNSUBSCRIBE. -/
def Backend.served
    (now : TimePoint)
    (backend : Backend)
    (cmd : Command) :
    Backend :=
  if cmd.name = ascii "AUTH" then
    backend
  else
    (backend.answer now cmd).2

/--
No command but the last one takes the string of a key of another type, each in
the state it finds.  The command behind `count` others finds `clock count`.
-/
def NoEarlyThrow (clock : Nat → TimePoint) :
    Nat → Backend → List Command → Prop
  | _, _, [] => True
  | count, backend, cmd :: later =>
      (later = [] ∨
          ¬TakesOtherType (clock count) backend.store cmd) ∧
        NoEarlyThrow clock (count + 1)
          (backend.served (clock count) cmd) later

/-- The commands that reach the dispatcher. -/
def dispatchable (commands : List Command) : List Command :=
  commands.filter fun cmd => cmd.name != ascii "AUTH"

/-- Each of the commands is executed and has one reply, in their order. -/
def Turn.AnswersEach (turn : Turn) (commands : List Command) : Prop :=
  turn.answered.map Prod.fst = commands ∧
    (∀ answer ∈ turn.answered, answer.2.length = 1) ∧
    turn.dispatched.map Dispatch.cmd = dispatchable commands ∧
    turn.handed.flatten = replyBytes turn.answered

instance
    (turn : Turn)
    (commands : List Command) :
    Decidable (turn.AnswersEach commands) :=
  inferInstanceAs (Decidable (_ ∧ _ ∧ _ ∧ _))

section Serving

variable {reserve : Reserve}
variable {turn : Turn} {value : RespValue} {cmd : Command}

/-- AUTH takes no string. -/
theorem not_takesOtherType_auth
    {now : TimePoint}
    {store : KvStore}
    (auth : cmd.name = ascii "AUTH") :
    ¬TakesOtherType now store cmd := by
  rintro ⟨key, value, taken, -⟩
  have nothing : stringKey cmd = none := by
    unfold stringKey
    rw [auth]
    rfl
  rw [nothing] at taken
  cases taken

/-- A logged and dispatched command leaves the loop if it throws. -/
theorem Turn.execute_spec
    (loggable : AofPersistence.Loggable reserve cmd)
    (now : TimePoint) :
    let next := (turn.execute reserve now cmd).state
    next.server.backend = (turn.server.backend.answer now cmd).2 ∧
      next.dispatched.map Dispatch.cmd =
        turn.dispatched.map Dispatch.cmd ++ [cmd] ∧
      ((∃ final, turn.execute reserve now cmd = .leave final) ↔
        TakesOtherType now turn.server.backend.store cmd) := by
  rw [← dispatch_throws_iff, ← Backend.answer_fst]
  unfold execute
  simp only [Server.logWrite_of_loggable loggable, Server.dispatch]
  cases (turn.server.backend.answer now cmd).1 with
  | error exception =>
      refine ⟨rfl, ?_, iff_of_true ⟨_, rfl⟩ ⟨_, rfl⟩⟩
      simp [Turn.fail, Turn.reply]
  | ok reply =>
      refine ⟨rfl, ?_, iff_of_false (by simp) (by simp)⟩
      simp [Turn.reply]

/-- What a command other than a pub/sub command does to an open turn. -/
theorem Turn.serve_spec
    (clock : Nat → TimePoint)
    (authenticated : turn.connection.authenticated = true)
    (reads : Reads reserve value cmd)
    (ordinary : isPubSub cmd.name = false) :
    let now := clock turn.answered.length
    let next := (turn.serve reserve clock value).state
    next.server.backend = turn.server.backend.served now cmd ∧
      next.dispatched.map Dispatch.cmd =
        turn.dispatched.map Dispatch.cmd ++ dispatchable [cmd] ∧
      ((∃ final, turn.serve reserve clock value = .leave final) ↔
        TakesOtherType now turn.server.backend.store cmd) := by
  have notPubSub :
      cmd.name ≠ ascii "SUBSCRIBE" ∧ cmd.name ≠ ascii "UNSUBSCRIBE" := by
    simpa [isPubSub] using ordinary
  unfold serve
  simp only [reads.parsed, Backend.served]
  by_cases auth : cmd.name = ascii "AUTH"
  · rw [if_pos auth, if_pos auth]
    refine ⟨rfl, ?_,
      iff_of_false (by simp) (not_takesOtherType_auth auth)⟩
    simp [Turn.reply, dispatchable, auth]
  · rw [if_neg auth, if_neg auth, if_neg (by simp [authenticated]),
      if_neg notPubSub.1, if_neg notPubSub.2]
    have listed : dispatchable [cmd] = [cmd] := by
      simp [dispatchable, auth]
    rw [listed]
    exact execute_spec reads.loggable _

/-- A turn that has answered no pub/sub command. -/
structure Turn.Ordinary (turn : Turn) : Prop where
  accounted : turn.Accounted
  ordinary : ∀ answer ∈ turn.answered, isPubSub answer.1.name = false
  dispatched :
    turn.dispatched.map Dispatch.cmd =
      dispatchable (turn.answered.map Prod.fst)

theorem Turn.ordinary_begin
    {connection : Connection}
    (authenticated : connection.authenticated = true)
    (server : Server) :
    (connection.begin server).Ordinary :=
  ⟨accounted_begin authenticated server,
    fun _ member => absurd member List.not_mem_nil, rfl⟩

/-- One more command that is not a pub/sub command. -/
theorem Turn.Ordinary.serve
    (settled : turn.Ordinary)
    (clock : Nat → TimePoint)
    (reads : Reads reserve value cmd)
    (ordinary : isPubSub cmd.name = false) :
    let next := (turn.serve reserve clock value).state
    next.Ordinary ∧
      ∃ replies, next.answered = turn.answered ++ [(cmd, replies)] := by
  obtain ⟨replies, answers⟩ :=
    serve_answers clock settled.accounted.authenticated reads.parsed
  have dispatched :=
    (serve_spec clock settled.accounted.authenticated reads ordinary).2.1
  refine ⟨⟨settled.accounted.step answers, ?_, ?_⟩, replies,
    answers.answered⟩
  · rw [answers.answered, List.forall_mem_append,
      List.forall_mem_singleton]
    exact ⟨settled.ordinary, ordinary⟩
  · rw [dispatched, answers.answered, settled.dispatched]
    simp [dispatchable]

/--
All commands are answered exactly if none but the last one throws.  A command
that throws is answered itself, so the last one may.
-/
theorem Turn.Ordinary.consumeItems
    {values : List RespValue}
    {commands : List Command}
    (settled : turn.Ordinary)
    (clock : Nat → TimePoint)
    (read : List.Forall₂ (Reads reserve) values commands)
    (ordinary : ∀ cmd ∈ commands, isPubSub cmd.name = false) :
    let final :=
      (consumeItems (Turn.serve reserve clock) turn values).state
    final.Ordinary ∧
      (final.answered.map Prod.fst =
          turn.answered.map Prod.fst ++ commands ↔
        NoEarlyThrow clock turn.answered.length turn.server.backend
          commands) := by
  induction read generalizing turn with
  | nil =>
      exact ⟨settled, iff_of_true (List.append_nil _).symm trivial⟩
  | @cons value cmd values commands head tail inductionHypothesis =>
      obtain ⟨first, others⟩ := List.forall_mem_cons.mp ordinary
      obtain ⟨kept, replies, answered⟩ := settled.serve clock head first
      obtain ⟨backend, -, throws⟩ :=
        serve_spec clock settled.accounted.authenticated head first
      rw [IncrementalDecoder.consumeItems, NoEarlyThrow, ← throws]
      cases served : turn.serve reserve clock value with
      | leave final =>
          rw [served, Control.state_leave] at kept answered
          refine ⟨kept, ?_⟩
          simp only [Control.state_leave, answered]
          cases commands <;> simp [NoEarlyThrow]
      | proceed later =>
          rw [served, Control.state_proceed] at kept answered backend
          obtain ⟨ended, step⟩ := inductionHypothesis kept others
          refine ⟨ended, ?_⟩
          rw [answered, backend, List.length_append] at step
          simpa using step

/-- Where no pub/sub command was answered, the read hands over everything. -/
theorem Turn.Ordinary.answersEach_finish_iff
    (settled : turn.Ordinary)
    (parser : RespParser)
    (commands : List Command) :
    (turn.setParser parser).finish.AnswersEach commands ↔
      turn.answered.map Prod.fst = commands := by
  obtain ⟨accounted, ordinary, dispatched⟩ := settled
  constructor
  · intro each
    have answered := each.1
    rwa [Turn.finish_answered] at answered
  · intro answered
    have sorted :
        PubSubFirst
          ((turn.setParser parser).finish.answered.map Prod.fst) := by
      rw [Turn.finish_answered, PubSubFirst, List.pairwise_map]
      refine List.pairwise_of_forall_mem_list fun first _ second member => ?_
      rw [ordinary second member]
      exact fun pubSub => Bool.noConfusion pubSub
    refine ⟨?_, ?_, ?_, ?_⟩
    · rwa [Turn.finish_answered]
    · rw [Turn.finish_answered]
      exact fun answer member =>
        accounted.single answer member (ordinary answer member)
    · rw [Turn.finish_dispatched, ← answered]
      exact dispatched
    · exact (accounted.finish_handed parser).in_order sorted

/--
In one read of an authenticated connection, every command other than SUBSCRIBE
and UNSUBSCRIBE is executed and answered once, in order, exactly if the read is
within the limit and no command but the last one takes the string of a key of
another type.
-/
theorem Connection.answersEach_iff
    (reserve : Reserve)
    (clock : Nat → TimePoint)
    (connection : Connection)
    (server : Server)
    (chunk : Bytes)
    (commands : List Command)
    (authenticated : connection.authenticated = true)
    (fresh : connection.parser = RespParser.empty)
    (stream : CommandStream reserve chunk commands)
    (ordinary : ∀ cmd ∈ commands, isPubSub cmd.name = false) :
    (connection.handleData reserve clock server chunk).AnswersEach
        commands ↔
      chunk.length ≤ connection.maxRequestBytes ∧
        NoEarlyThrow clock 0 server.backend commands := by
  have size :
      connection.parser.bufferedSize + chunk.length = chunk.length := by
    rw [fresh]
    exact Nat.zero_add _
  by_cases within : chunk.length ≤ connection.maxRequestBytes
  · obtain ⟨values, drains, read⟩ := stream.exists_drain
    obtain ⟨settled, answered⟩ :=
      (Turn.ordinary_begin authenticated server).consumeItems clock read
        ordinary
    have whole :
        drain (RespParser.decode reserve)
            (connection.parser.buf ++ chunk) =
          ⟨values, none, []⟩ := by
      rw [fresh]
      exact drains
    rw [handleData_eq clock connection server (by rwa [size]) whole rfl,
      and_iff_right within]
    cases served :
        consumeItems (Turn.serve reserve clock) (connection.begin server)
          values with
    | proceed final =>
        rw [served, Control.state_proceed] at settled answered
        exact (settled.answersEach_finish_iff _ commands).trans answered
    | leave final =>
        rw [served, Control.state_leave] at settled answered
        exact (settled.answersEach_finish_iff _ commands).trans answered
  · refine iff_of_false ?_ fun both => within both.1
    intro each
    -- A refused read answers no command, but it is not empty.
    have refused :
        connection.handleData reserve clock server chunk =
          connection.refuseRequest server := by
      unfold handleData
      rw [size, if_pos (Nat.lt_of_not_le within)]
    rw [refused] at each
    have none : commands = [] := each.1.symm
    subst none
    obtain ⟨-, values, framed, parsed⟩ := stream
    cases parsed
    cases framed
    exact within (Nat.zero_le _)

/-- A client that reads a missing key and pings. -/
theorem Connection.answersEach_get_ping :
    let get : Command := ⟨ascii "GET", [ascii "k"]⟩
    let ping : Command := ⟨ascii "PING", []⟩
    ((create 0 [] 1048576 1048576).handleData (fun _ => none) (fun _ => 0)
        ⟨Backend.initial, none⟩
        (AofPersistence.wire [get, ping])).AnswersEach [get, ping] := by
  intro get ping
  have loggable :
      ∀ cmd ∈ [get, ping],
        AofPersistence.Loggable (fun _ => none) cmd := by
    simp only [List.forall_mem_cons, List.not_mem_nil, false_implies,
      implies_true, and_true]
    constructor
    · exact AofPersistence.loggable_of_lengths (by decide) (by decide) rfl
    · exact AofPersistence.loggable_of_lengths (by decide) (by decide) rfl
  refine (answersEach_iff (fun _ => none) (fun _ => 0) _ _ _ [get, ping]
    rfl rfl (commandStream_wire loggable fun _ _ => rfl)
    (by decide)).mpr ⟨by decide, .inr ?_, .inl rfl, trivial⟩
  rintro ⟨key, value, -, found, -⟩
  exact nomatch found

/-- PING behind a GET of a list is neither executed nor answered. -/
theorem Connection.get_of_list_drops_ping :
    let get : Command := ⟨ascii "GET", [ascii "k"]⟩
    let ping : Command := ⟨ascii "PING", []⟩
    let backend :=
      (Backend.initial.dispatch 0
        ⟨ascii "LPUSH", [ascii "k", ascii "v"]⟩).2
    let turn :=
      (create 0 [] 1048576 1048576).handleData (fun _ => none) (fun _ => 0)
        ⟨backend, none⟩ (AofPersistence.wire [get, ping])
    turn.answered.map Prod.fst = [get] ∧
      turn.connection.parser = RespParser.empty ∧
      ¬turn.AnswersEach [get, ping] := by
  decide

end Serving

end Vortek
