import Vortek.ServerBounds

namespace Vortek

open EmittingMachine IncrementalDecoder

/-!
# What a client is written

The output of a connection is compared with the history.  Replies to SUBSCRIBE
and UNSUBSCRIBE are handed over at once, all others at the end of the read, so
these are two streams; published messages are a third one.  In each of the first
two, every answer that the history records for the connection since it was
accepted stands once and in order.  Between the collected replies there are only
complaints about bytes that are not a command (`Tells`).
-/

/-- The replies to a command that was refused before AUTH. -/
def isRefusal : List RespValue → Bool
  | [.error message] => message = ascii "NOAUTH Authentication required."
  | _ => false

/-- The answer was handed over without waiting for the end of the read. -/
def isAtOnce (answer : Command × List RespValue) : Bool :=
  isPubSub answer.1.name && !isRefusal answer.2

variable (reserve : Reserve)

/--
An error that answers no command: the value is not a command, the request is too
long, or the parser throws.
-/
inductive IsComplaint : RespValue → Prop where
  | notCommand :
      IsComplaint (err "ERR protocol error: expected command array")
  | tooLong :
      IsComplaint (err "ERR max request size exceeded")
  | malformed
      {input : Bytes}
      {exception : CppException}
      (thrown : RespParser.decode reserve input = .fault exception) :
      IsComplaint (exceptionReply exception)

/-- The replies to some commands in order, with complaints between them. -/
inductive Transcript : List (Command × List RespValue) → Bytes → Prop where
  | nil :
      Transcript [] []
  | answer
      {answers : List (Command × List RespValue)}
      {bytes : Bytes}
      (before : Transcript answers bytes)
      (answer : Command × List RespValue) :
      Transcript (answers ++ [answer])
        (bytes ++ RespValue.serializeAll answer.2)
  | complaint
      {answers : List (Command × List RespValue)}
      {bytes : Bytes}
      {value : RespValue}
      (before : Transcript answers bytes)
      (complaint : IsComplaint reserve value) :
      Transcript answers (bytes ++ value.serialize)

variable {reserve}

/-- Transcripts can be joined. -/
theorem Transcript.append
    {answers more : List (Command × List RespValue)}
    {bytes others : Bytes}
    (first : Transcript reserve answers bytes)
    (second : Transcript reserve more others) :
    Transcript reserve (answers ++ more) (bytes ++ others) := by
  induction second with
  | nil =>
      rw [List.append_nil, List.append_nil]
      exact first
  | answer before answer inductionHypothesis =>
      rw [← List.append_assoc, ← List.append_assoc]
      exact inductionHypothesis.answer answer
  | complaint before complaint inductionHypothesis =>
      rw [← List.append_assoc]
      exact inductionHypothesis.complaint complaint

namespace Output

/-- The replies that were collected until the end of a read. -/
def collected : Output → Bytes
  | .replies data => data
  | _ => []

/-- The replies that were handed over at once. -/
def immediate : Output → Bytes
  | .pubSub values => RespValue.serializeAll values
  | _ => []

end Output

/-- Some outputs carry some answers, each of them once and in order. -/
structure Tells
    (reserve : Reserve)
    (answers : List (Command × List RespValue))
    (outputs : List Output) :
    Prop where
  collected :
    Transcript reserve (answers.filter fun answer => !isAtOnce answer)
      (outputs.flatMap Output.collected)
  atOnce :
    outputs.flatMap Output.immediate = replyBytes (answers.filter isAtOnce)

namespace Tells

variable {answers more : List (Command × List RespValue)}
variable {outputs others : List Output}

theorem nil : Tells reserve [] [] :=
  ⟨.nil, rfl⟩

/-- What is told in two parts is told as a whole. -/
theorem append
    (first : Tells reserve answers outputs)
    (second : Tells reserve more others) :
    Tells reserve (answers ++ more) (outputs ++ others) := by
  constructor
  · rw [List.filter_append, List.flatMap_append]
    exact first.collected.append second.collected
  · rw [List.filter_append, List.flatMap_append, first.atOnce,
      second.atOnce, replyBytes, replyBytes, replyBytes,
      List.flatMap_append]

/-- A published message answers no command. -/
theorem message
    (channel text : Bytes) :
    Tells reserve [] [.message channel text] :=
  ⟨.nil, rfl⟩

/-- A complaint answers no command. -/
theorem complaint
    {value : RespValue}
    (complaint : IsComplaint reserve value) :
    Tells reserve [] [.replies value.serialize] := by
  refine ⟨?_, rfl⟩
  have alone : Transcript reserve [] ([] ++ value.serialize) :=
    Transcript.nil.complaint complaint
  rw [List.flatMap_singleton]
  exact alone

end Tells

section Serving

variable {clock : Nat → TimePoint}

/-- What serving a value does to the replies. -/
inductive Turn.ReplyStep
    (reserve : Reserve)
    (turn : Turn)
    (outputs : List Output)
    (next : Turn) :
    Prop where
  | complained
      (value : RespValue)
      (complaint : IsComplaint reserve value)
      (answered : next.answered = turn.answered)
      (responses : next.responses = turn.responses ++ value.serialize)
      (silent : outputs = [])
  | collected
      (answer : Command × List RespValue)
      (waits : isAtOnce answer = false)
      (answered : next.answered = turn.answered ++ [answer])
      (responses :
        next.responses =
          turn.responses ++ RespValue.serializeAll answer.2)
      (silent : outputs = [])
  | handedOver
      (answer : Command × List RespValue)
      (goes : isAtOnce answer = true)
      (answered : next.answered = turn.answered ++ [answer])
      (responses : next.responses = turn.responses)
      (collected : outputs.flatMap Output.collected = [])
      (immediate :
        outputs.flatMap Output.immediate = RespValue.serializeAll answer.2)

/-- One reply that waits for the end of the read. -/
theorem Turn.replyStep_reply
    {turn next : Turn}
    {cmd : Command}
    {value : RespValue}
    (waits : isAtOnce (cmd, [value]) = false)
    (answered : next.answered = turn.answered ++ [(cmd, [value])])
    (responses : next.responses = turn.responses ++ value.serialize) :
    turn.ReplyStep reserve [] next := by
  refine .collected (cmd, [value]) waits answered ?_ rfl
  rw [responses, RespValue.serializeAll, RespValue.serializeAll,
    List.append_nil]

theorem isAtOnce_of_ordinary
    {answer : Command × List RespValue}
    (ordinary : isPubSub answer.1.name = false) :
    isAtOnce answer = false := by
  rw [isAtOnce, ordinary, Bool.false_and]

/-- The replies of a pub/sub command are not those of a refusal. -/
theorem isAtOnce_of_pubSub
    {cmd : Command}
    {replies : List RespValue}
    (pubSub : isPubSub cmd.name = true)
    (other : isRefusal replies = false) :
    isAtOnce (cmd, replies) = true := by
  rw [isAtOnce, pubSub, other]
  rfl

theorem isRefusal_makeSubscribeReply
    (kind channel : Bytes)
    (count : Int64)
    (more : List RespValue) :
    isRefusal (makeSubscribeReply kind channel count :: more) = false := by
  cases more <;> rfl

/-- SUBSCRIBE is never answered like a command before AUTH. -/
theorem Connection.isRefusal_handleSubscribe
    (connection : Connection)
    (broker : Option PubSubBroker)
    (cmd : Command) :
    isRefusal (connection.handleSubscribe broker cmd).1 = false := by
  have missing :
      isRefusal [err "ERR SUBSCRIBE requires at least one channel"] =
        false := by
    decide
  cases broker with
  | none =>
      exact missing
  | some broker =>
      simp only [handleSubscribe]
      cases cmd.args with
      | nil =>
          exact missing
      | cons channel later =>
          exact isRefusal_makeSubscribeReply _ _ _ _

theorem Connection.isRefusal_handleUnsubscribe
    (connection : Connection)
    (broker : PubSubBroker)
    (cmd : Command) :
    isRefusal (connection.handleUnsubscribe broker cmd).1 = false := by
  simp only [handleUnsubscribe]
  cases cmd.args with
  | nil =>
      simp only [List.isEmpty_nil, if_true, unsubscribeFromAll]
      cases (broker.unsubscribeAll connection.id).1 with
      | nil =>
          rfl
      | cons channel later =>
          exact isRefusal_makeSubscribeReply _ _ _ _
  | cons channel later =>
      exact isRefusal_makeSubscribeReply _ _ _ _

/-- A command that is executed, or throws, is answered with the others. -/
theorem Turn.execute_replyStep
    {cmd : Command}
    (ordinary : isPubSub cmd.name = false)
    (turn : Turn)
    (now : TimePoint) :
    turn.ReplyStep reserve [] (turn.execute reserve now cmd).state := by
  have waits (replies : List RespValue) :
      isAtOnce (cmd, replies) = false :=
    isAtOnce_of_ordinary ordinary
  unfold execute
  split
  · exact replyStep_reply (waits _) rfl rfl
  · dsimp only
    split
    · exact replyStep_reply (waits _) rfl rfl
    · exact replyStep_reply (waits _) rfl rfl

/-- Serving a value complains, or answers a command in one of two ways. -/
theorem Turn.serve_replyStep
    (turn : Turn)
    (value : RespValue) :
    turn.ReplyStep reserve ((turn.serveCalls value).flatMap SocketCall.outputs)
      (turn.serve reserve clock value).state := by
  unfold serve serveCalls
  cases parseCommand value with
  | none =>
      exact .complained _ .notCommand rfl rfl rfl
  | some cmd =>
      dsimp only
      by_cases auth : cmd.name = ascii "AUTH"
      · rw [if_pos auth, if_pos auth]
        have ordinary : isPubSub cmd.name = false := by
          rw [auth]
          decide
        exact replyStep_reply (isAtOnce_of_ordinary ordinary) rfl rfl
      rw [if_neg auth, if_neg auth]
      by_cases locked : turn.connection.authenticated = false
      · rw [if_pos locked, if_pos locked]
        have refused :
            isRefusal [err "NOAUTH Authentication required."] = true := by
          decide
        refine replyStep_reply ?_ rfl rfl
        rw [isAtOnce, refused]
        exact Bool.and_false _
      rw [if_neg locked, if_neg locked]
      by_cases joins : cmd.name = ascii "SUBSCRIBE"
      · rw [if_pos joins, if_pos joins]
        have pubSub : isPubSub cmd.name = true := by
          rw [joins]
          decide
        refine .handedOver (cmd, _)
          (isAtOnce_of_pubSub pubSub
            (turn.connection.isRefusal_handleSubscribe
              turn.server.backend.broker cmd)) rfl rfl rfl ?_
        exact List.append_nil _
      rw [if_neg joins, if_neg joins]
      by_cases leaves : cmd.name = ascii "UNSUBSCRIBE"
      · rw [if_pos leaves, if_pos leaves]
        have pubSub : isPubSub cmd.name = true := by
          rw [leaves]
          decide
        unfold unsubscribe
        cases turn.server.backend.broker with
        | none =>
            exact .handedOver (cmd, []) (isAtOnce_of_pubSub pubSub rfl)
              rfl rfl rfl rfl
        | some broker =>
            refine .handedOver (cmd, _)
              (isAtOnce_of_pubSub pubSub
                (turn.connection.isRefusal_handleUnsubscribe broker cmd))
              rfl rfl rfl ?_
            exact List.append_nil _
      rw [if_neg leaves, if_neg leaves]
      have ordinary : isPubSub cmd.name = false := by
        simp [isPubSub, joins, leaves]
      exact execute_replyStep ordinary turn _

end Serving

/-- The outputs of a turn so far, and the replies that it has collected. -/
structure Turn.Bears
    (reserve : Reserve)
    (turn : Turn)
    (outputs : List Output) :
    Prop where
  collected :
    Transcript reserve
      (turn.answered.filter fun answer => !isAtOnce answer) turn.responses
  waiting : outputs.flatMap Output.collected = []
  atOnce :
    outputs.flatMap Output.immediate =
      replyBytes (turn.answered.filter isAtOnce)

section Reading

variable {clock : Nat → TimePoint}
variable {turn next : Turn} {outputs more : List Output}

/-- Serving one more value keeps the two streams apart. -/
theorem Turn.Bears.step
    (bears : turn.Bears reserve outputs)
    (step : turn.ReplyStep reserve more next) :
    next.Bears reserve (outputs ++ more) := by
  obtain ⟨collected, waiting, atOnce⟩ := bears
  cases step with
  | complained value complaint answered responses silent =>
      rw [silent, List.append_nil]
      refine ⟨?_, waiting, ?_⟩
      · rw [answered, responses]
        exact collected.complaint complaint
      · rw [answered]
        exact atOnce
  | collected answer waits answered responses silent =>
      have others :
          (turn.answered ++ [answer]).filter isAtOnce =
            turn.answered.filter isAtOnce := by
        simp [List.filter_append, waits]
      have added :
          (turn.answered ++ [answer]).filter
              (fun answer => !isAtOnce answer) =
            (turn.answered.filter fun answer => !isAtOnce answer) ++
              [answer] := by
        simp [List.filter_append, waits]
      rw [silent, List.append_nil]
      refine ⟨?_, waiting, ?_⟩
      · rw [answered, responses, added]
        exact collected.answer answer
      · rw [answered, others]
        exact atOnce
  | handedOver answer goes answered responses nothing immediate =>
      have others :
          (turn.answered ++ [answer]).filter
              (fun answer => !isAtOnce answer) =
            turn.answered.filter fun answer => !isAtOnce answer := by
        simp [List.filter_append, goes]
      have added :
          (turn.answered ++ [answer]).filter isAtOnce =
            turn.answered.filter isAtOnce ++ [answer] := by
        simp [List.filter_append, goes]
      refine ⟨?_, ?_, ?_⟩
      · rw [answered, responses, others]
        exact collected
      · rw [List.flatMap_append, waiting, nothing]
        rfl
      · rw [List.flatMap_append, atOnce, immediate, answered, added,
          replyBytes, replyBytes, List.flatMap_append,
          List.flatMap_singleton]

/-- What ends the loop of a read with an exception is the parser. -/
theorem isComplaint_of_faulted
    {parser : RespParser}
    {chunk : Bytes}
    {exception : CppException}
    (faulted :
      (RespParser.feedEach reserve (Turn.serve reserve clock) turn parser
        chunk).ending = .faulted exception) :
    IsComplaint reserve (exceptionReply exception) := by
  rw [RespParser.feedEach_eq_consumeAll] at faulted
  exact .malformed
    (decode_rest_of_faulted (RespParser.incremental_decode reserve) faulted)

/-- The loop of a read has collected what it has not handed over. -/
theorem Connection.dataTurn_bears
    (connection : Connection)
    (server : Server)
    (chunk : Bytes) :
    (connection.dataTurn reserve clock server chunk).Bears reserve
      (((connection.served reserve clock server chunk).flatMap
        fun visit => visit.1.serveCalls visit.2).flatMap
          SocketCall.outputs) := by
  have looped :=
    visits_invariant (RespParser.decode reserve)
      (Turn.serve reserve clock)
      (fun turn seen =>
        turn.Bears reserve
          ((seen.flatMap fun visit => visit.1.serveCalls visit.2).flatMap
            SocketCall.outputs))
      (by
        intro turn seen input value rest _ bears
        rw [List.flatMap_append, List.flatMap_append,
          List.flatMap_singleton]
        exact bears.step (turn.serve_replyStep value))
      (⟨.nil, rfl, rfl⟩ : (connection.begin server).Bears reserve [])
      (connection.parser.buf ++ chunk)
  rw [← RespParser.feedEach_eq_consumeAll] at looped
  obtain ⟨collected, waiting, atOnce⟩ := looped
  unfold dataTurn
  dsimp only
  split
  · exact ⟨collected, waiting, atOnce⟩
  · exact ⟨collected, waiting, atOnce⟩
  · rename_i faulted
    exact ⟨collected.complaint (isComplaint_of_faulted faulted), waiting,
      atOnce⟩

/-- The end of a read hands over what it has collected. -/
theorem Turn.Bears.finish
    (bears : turn.Bears reserve outputs) :
    Tells reserve turn.answered (outputs ++ turn.finishCall.outputs) := by
  have last :
      turn.finishCall.outputs.flatMap Output.collected =
          turn.responses ∧
        turn.finishCall.outputs.flatMap Output.immediate = [] := by
    unfold finishCall
    split
    · rename_i nothing
      exact ⟨(List.isEmpty_iff.mp nothing).symm, rfl⟩
    · exact ⟨List.append_nil _, rfl⟩
  constructor
  · rw [List.flatMap_append, bears.waiting, last.1]
    exact bears.collected
  · rw [List.flatMap_append, bears.atOnce, last.2, List.append_nil]

/-- A read hands over the answers that it records. -/
theorem Connection.handleCalls_tell
    (connection : Connection)
    (server : Server)
    (chunk : Bytes) :
    Tells reserve (connection.handleData reserve clock server chunk).answered
      ((connection.handleCalls reserve clock server chunk).flatMap
        SocketCall.outputs) := by
  rw [handleData_eq_dataTurn]
  unfold handleCalls
  cases connection.exceedsRequest chunk with
  | true =>
      exact Tells.complaint .tooLong
  | false =>
      simp only [Bool.false_eq_true, if_false, Turn.finish_answered]
      rw [List.flatMap_append, List.flatMap_singleton]
      exact (connection.dataTurn_bears server chunk).finish

/-- A completion hands over the answers that it records. -/
theorem Session.outputs_tell
    (session : Session)
    (server : Server)
    (completion : Completion) :
    Tells reserve (session.answers reserve (completion.input server))
      (session.outputs reserve (completion.input server)) := by
  cases completion with
  | readDone clock chunk =>
      simp only [Completion.input, answers, outputs]
      split
      · exact .nil
      · exact Connection.handleCalls_tell _ server chunk
  | readFailed | writeDone | writeFailed | waitExpired | waitAborted =>
      exact .nil

end Reading

namespace Happening

/-- The answers to a connection, with one more happening. -/
def answering
    (id : Nat)
    (answers : List (Command × List RespValue)) :
    Happening → List (Command × List RespValue)
  | .accepted other => if other = id then [] else answers
  | .answered other cmd replies =>
      if other = id then answers ++ [(cmd, replies)] else answers

/-- The answers to a connection since it was accepted. -/
def answersTo (id : Nat) (history : List Happening) :
    List (Command × List RespValue) :=
  history.foldl (answering id) []

theorem answersTo_accepted
    (id other : Nat)
    (history : List Happening) :
    answersTo id (history ++ [.accepted other]) =
      if other = id then [] else answersTo id history := by
  rw [answersTo, List.foldl_append]
  rfl

/-- Answers are added for the connection that they are for. -/
theorem answersTo_answered
    (id other : Nat)
    (history : List Happening)
    (answers : List (Command × List RespValue)) :
    answersTo id
        (history ++ answers.map fun answer =>
          .answered other answer.1 answer.2) =
      if other = id then answersTo id history ++ answers
      else answersTo id history := by
  induction answers generalizing history with
  | nil =>
      simp
  | cons answer later inductionHypothesis =>
      have first :
          answersTo id (history ++ [.answered other answer.1 answer.2]) =
            if other = id then answersTo id history ++ [answer]
            else answersTo id history := by
        rw [answersTo, List.foldl_append]
        rfl
      rw [List.map_cons, List.append_cons, inductionHypothesis, first]
      split
      · rw [List.append_assoc]
        rfl
      · rfl

end Happening

namespace EventLoop

/-- Open connections have been handed the answers that the history records. -/
def Told (reserve : Reserve) (loop : EventLoop) : Prop :=
  ∀ id session,
    loop.sessions.lookup id = some session →
    session.connection.transport.socketOpen = true →
    Tells reserve (Happening.answersTo id loop.history) session.accepted

section Steps

variable {loop next : EventLoop} {id : Nat} {session : Session}

theorem Told.congr
    (told : loop.Told reserve)
    (history : next.history = loop.history)
    (sessions :
      ∀ id session,
        next.sessions.lookup id = some session →
        loop.sessions.lookup id = some session) :
    next.Told reserve := by
  intro id session found isOpen
  rw [history]
  exact told id session (sessions id session found) isOpen

/-- A new connection starts with nothing to tell. -/
theorem Told.addClient
    (told : loop.Told reserve)
    (config : ServerConfig)
    (id : Nat) :
    (loop.addClient config id).Told reserve := by
  intro other one found isOpen
  change Tells reserve
    (Happening.answersTo other (loop.history ++ [.accepted id])) one.accepted
  rw [Happening.answersTo_accepted]
  rcases lookup_insert_cases found with ⟨rfl, rfl⟩ | ⟨differs, earlier⟩
  · rw [if_pos rfl, Session.accepted_start]
    exact .nil
  · rw [if_neg (Ne.symm differs)]
    exact told other one earlier isOpen

/-- A completion tells its connection what it adds to the history. -/
theorem Told.handle
    (told : loop.Told reserve)
    (found : loop.sessions.lookup id = some session)
    (completion : Completion) :
    (loop.handle reserve id session completion).Told reserve := by
  intro other one inserted isOpen
  change Tells reserve
    (Happening.answersTo other
      (loop.history ++
        (session.answers reserve (completion.input loop.server)).map
          fun answer => .answered id answer.1 answer.2)) one.accepted
  rw [Happening.answersTo_answered]
  rcases lookup_insert_cases inserted with ⟨rfl, rfl⟩ | ⟨differs, earlier⟩
  · obtain ⟨before, accepted⟩ :=
      (session.handle_accepts reserve
        (completion.input loop.server)).whole isOpen
    rw [if_pos rfl]
    change Tells reserve _ (session.handle reserve
      (completion.input loop.server)).socket.accepted
    rw [accepted]
    exact (told other session found before).append
      (session.outputs_tell loop.server completion)
  · rw [if_neg (Ne.symm differs)]
    exact told other one earlier isOpen

/-- A delivery tells no answers. -/
theorem Told.deliver
    {delivery : Delivery}
    (told : loop.Told reserve)
    (found :
      loop.sessions.lookup delivery.write.connection = some session)
    (later : List Delivery) :
    (loop.deliver later session delivery).Told reserve := by
  intro other one inserted isOpen
  change Tells reserve (Happening.answersTo other loop.history) one.accepted
  rcases lookup_insert_cases inserted with ⟨rfl, rfl⟩ | ⟨-, earlier⟩
  · obtain ⟨before, accepted⟩ :=
      (session.socket.accepts_doWrite _
        (.message delivery.write.channel delivery.message)).whole isOpen
    change Tells reserve _ (session.socket.doWrite _ _).accepted
    rw [accepted]
    have extended :=
      (told _ session found before).append
        (.message delivery.write.channel delivery.message)
    rw [List.append_nil] at extended
    exact extended
  · exact told other one earlier isOpen

/-- Whatever the loop does, its connections are told the history. -/
theorem Told.step
    (told : loop.Told reserve)
    (config : ServerConfig)
    (event : LoopEvent) :
    (loop.step config reserve event).Told reserve := by
  have progress := loop.step_progress config reserve event
  generalize loop.step config reserve event = after at progress ⊢
  cases progress with
  | idle =>
      exact told
  | admitted id fresh =>
      exact told.addClient config id
  | completed id session completion found =>
      exact (told.handle found completion).congr
        (history_release _ id) fun _ _ => lookup_of_lookup_release
  | delivered delivery later session posted found =>
      exact (told.deliver found later).congr
        (history_release _ _) fun _ _ => lookup_of_lookup_release

end Steps

end EventLoop

namespace Process

/-- Whatever happens to a process, its connections are told the history. -/
theorem Orderly.step_told
    {process : Process}
    (orderly : process.Orderly)
    (told : process.loop.Told reserve)
    (event : ProcessEvent) :
    (process.step reserve event).loop.Told reserve := by
  obtain ⟨-, change⟩ := orderly.step_loopChange reserve event
  generalize process.executes reserve event = dispatches at change
  generalize (process.step reserve event).loop = after at change ⊢
  cases change with
  | kept =>
      exact told
  | swept now =>
      exact told.congr rfl fun _ _ found => found
  | closed =>
      exact told.congr rfl fun _ _ found => found
  | admitted id free room =>
      exact told.addClient process.config id
  | ran event other =>
      exact told.step process.config event

/--
Every open connection has been handed exactly the answers that the history
records for it since it was accepted, each of them once and in order: those of
SUBSCRIBE and UNSUBSCRIBE in one stream, all others in another one, in which
only complaints stand between them.  What has been written is a beginning of it.
-/
theorem clients_get_their_replies
    (reserve : Reserve)
    (around : Surroundings)
    (cfg : Config)
    (events : List ProcessEvent) :
    let loop := ((launch reserve around cfg).after reserve events).loop
    ∀ id session,
      loop.sessions.lookup id = some session →
      session.connection.transport.socketOpen = true →
      Tells reserve (Happening.answersTo id loop.history) session.accepted ∧
        session.sent <+: session.accepted.map Output.bytes := by
  intro loop id session found isOpen
  have nobody : (launch reserve around cfg).loop.Told reserve :=
    fun _ _ found => absurd found.symm (Option.some_ne_none _)
  have told :
      ((launch reserve around cfg).after reserve events).Orderly ∧
        loop.Told reserve :=
    Machine.invariant
      (fun one : Process => one.Orderly ∧ one.loop.Told reserve)
      (fun _ event before =>
        ⟨before.1.step reserve event,
          before.1.step_told before.2 event⟩)
      ⟨orderly_launch around cfg, nobody⟩ events
  have bounded := bounded_after reserve around cfg events
  have flow :=
    (bounded.every id session found).steady.flowControlled isOpen
  refine ⟨told.2 id session found isOpen, ?_⟩
  rw [← flow.inOrder, List.append_assoc]
  exact List.prefix_append _ _

/-- One read brings PING, SUBSCRIBE, GET and something that is no command. -/
theorem clients_get_their_replies_pipelined :
    let around : Surroundings :=
      ⟨fun _ => .error [], fun _ => none, 0, fun _ => 0, fun _ => true⟩
    let commands : List Command :=
      [⟨ascii "PING", []⟩, ⟨ascii "SUBSCRIBE", [ascii "c"]⟩,
        ⟨ascii "GET", [ascii "k"]⟩]
    let events : List ProcessEvent :=
      [.acceptDone (.socket 7 true),
        .complete 7
          (.readDone (fun _ => 5)
            (AofPersistence.wire commands ++
              (RespValue.integer 1).serialize)),
        .complete 7 .writeDone]
    let loop :=
      ((launch (fun _ => none) around {}).after (fun _ => none) events).loop
    (Happening.answersTo 7 loop.history).map Prod.fst = commands ∧
      ∃ session,
        loop.sessions.lookup 7 = some session ∧
          session.accepted.length = 2 ∧
          session.sent.length = 1 ∧
          Tells (fun _ => none) (Happening.answersTo 7 loop.history)
            session.accepted ∧
          session.sent <+: session.accepted.map Output.bytes := by
  intro around commands events loop
  have shown :
      (loop.sessions.lookup 7).map (fun session =>
          (session.connection.transport.socketOpen,
            session.accepted.length, session.sent.length)) =
        some (true, 2, 1) := by
    decide +kernel
  obtain ⟨session, found, same⟩ := Option.map_eq_some_iff.mp shown
  obtain ⟨isOpen, rest⟩ := Prod.mk.inj same
  obtain ⟨accepted, sent⟩ := Prod.mk.inj rest
  have told :=
    clients_get_their_replies (fun _ => none) around {} events 7 session
      found isOpen
  exact ⟨by decide +kernel, session, found, accepted, sent, told⟩

end Process

end Vortek
