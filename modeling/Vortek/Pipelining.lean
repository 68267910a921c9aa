import Vortek.Connection
import Vortek.RespConformance

namespace Vortek

open IncrementalDecoder

/-!
# Pipelined commands

A client may send commands without waiting for replies, and a read may bring
several of them.  This module follows the replies of an authenticated
connection.  Within one read the replies of SUBSCRIBE and UNSUBSCRIBE are handed
to `do_write` first and those of all other commands behind them
(`Turn.HandsInTwoParts`).  The order of the commands is kept where no pub/sub
command follows another one.
-/

/-- SUBSCRIBE and UNSUBSCRIBE, whose replies are handed over at once. -/
def isPubSub (name : Bytes) : Bool :=
  name == ascii "SUBSCRIBE" || name == ascii "UNSUBSCRIBE"

/-- The bytes of recorded replies, in the order of the commands. -/
def replyBytes (answers : List (Command × List RespValue)) : Bytes :=
  answers.flatMap fun answer => RespValue.serializeAll answer.2

/-- A value of the stream that is a command, in storage that holds it. -/
structure Reads
    (reserve : Reserve)
    (value : RespValue)
    (cmd : Command) :
    Prop where
  parsed : parseCommand value = some cmd
  loggable : AofPersistence.Loggable reserve cmd

/-- The bytes are well-formed frames of these commands and fit in storage. -/
structure CommandStream
    (reserve : Reserve)
    (stream : Bytes)
    (commands : List Command) :
    Prop where
  storage : ∀ count, count ≤ stream.length → reserve count = none
  framed :
    ∃ values,
      Frames .resp2 stream values ∧
        List.Forall₂
          (fun value cmd => parseCommand value = some cmd)
          values commands

section Streams

variable {reserve : Reserve} {stream : Bytes}

/-- Frames are drained as their values. -/
theorem drain_of_frames
    {values : List RespValue}
    (framed : Frames (.parser reserve) stream values) :
    drain (RespParser.decode reserve) stream = ⟨values, none, []⟩ := by
  induction values generalizing stream with
  | nil =>
      cases framed
      exact drain_more (RespParser.decode_nil reserve)
  | cons value values inductionHypothesis =>
      cases framed with
      | cons head tail =>
          rw [drain_item (RespParser.incremental_decode reserve)
            (RespParser.decode_frame_append head _),
            inductionHypothesis tail]
          rfl

/-- What the parser reads from a stream of commands. -/
theorem CommandStream.exists_drain
    {commands : List Command}
    (commandStream : CommandStream reserve stream commands) :
    ∃ values,
      drain (RespParser.decode reserve) stream = ⟨values, none, []⟩ ∧
        List.Forall₂ (Reads reserve) values commands := by
  obtain ⟨storage, values, framed, parsed⟩ := commandStream
  have read := RespParser.parserFrames_of_resp2 framed storage
  have storable :=
    RespValue.everywhereAll_iff.mp
      (RespParser.lineSafe_and_storable_of_frames read).2
  refine ⟨values, drain_of_frames read, ?_⟩
  exact ((List.forall₂_and_left values commands).mpr
    ⟨storable, parsed⟩).imp fun value cmd both =>
      ⟨both.2, AofPersistence.loggable_of_parseCommand both.1 both.2⟩

/-- Values that are commands are parsed as these. -/
theorem filterMap_parseCommand_of_reads
    {values : List RespValue}
    {commands : List Command}
    (read : List.Forall₂ (Reads reserve) values commands) :
    values.filterMap parseCommand = commands := by
  induction read with
  | nil =>
      rfl
  | cons head tail inductionHypothesis =>
      rw [List.filterMap_cons_some head.parsed, inductionHypothesis]

/-- Commands in the form that is logged are a stream of commands. -/
theorem commandStream_wire
    {commands : List Command}
    (loggable : ∀ cmd ∈ commands, AofPersistence.Loggable reserve cmd)
    (storage :
      ∀ count,
        count ≤ (AofPersistence.wire commands).length →
        reserve count = none) :
    CommandStream reserve (AofPersistence.wire commands) commands := by
  refine ⟨storage, commands.map Command.toResp, ?_, ?_⟩
  · clear storage
    induction commands with
    | nil =>
        exact .nil
    | cons cmd later inductionHypothesis =>
        obtain ⟨first, rest⟩ := List.forall_mem_cons.mp loggable
        exact .cons
          (RespParser.frame_serialize RespParser.canonical_resp2
            RespValue.lineSafe_bulkArray first.storable)
          (inductionHypothesis rest)
  · rw [List.forall₂_map_left_iff, List.forall₂_same]
    exact fun cmd member =>
      parseCommand_toResp (loggable cmd member).capital

end Streams

section Answering

variable {reserve : Reserve} {clock : Nat → TimePoint}
variable {turn next : Turn} {cmd : Command}

/-- What answering one command adds to the record of a turn. -/
structure Turn.Answers
    (turn : Turn)
    (cmd : Command)
    (replies : List RespValue)
    (next : Turn) :
    Prop where
  answered : next.answered = turn.answered ++ [(cmd, replies)]
  authenticated : next.connection.authenticated = true
  handed :
    next.handed.flatten =
      turn.handed.flatten ++
        if isPubSub cmd.name then RespValue.serializeAll replies else []
  responses :
    next.responses =
      turn.responses ++
        if isPubSub cmd.name then [] else RespValue.serializeAll replies
  single : isPubSub cmd.name = false → replies.length = 1

/-- An ordinary reply is collected. -/
theorem Turn.answers_reply
    {value : RespValue}
    (ordinary : isPubSub cmd.name = false)
    (authenticated : next.connection.authenticated = true)
    (answered : next.answered = turn.answered ++ [(cmd, [value])])
    (handed : next.handed = turn.handed)
    (responses : next.responses = turn.responses ++ value.serialize) :
    turn.Answers cmd [value] next where
  answered := answered
  authenticated := authenticated
  handed := by simp [handed, ordinary]
  responses := by simp [responses, ordinary, RespValue.serializeAll]
  single := fun _ => rfl

/-- The replies of a pub/sub command are handed over. -/
theorem Turn.answers_replyNow
    {replies : List RespValue}
    {joined : ByteSet}
    {broker : Option PubSubBroker}
    (pubSub : isPubSub cmd.name = true)
    (authenticated : turn.connection.authenticated = true) :
    turn.Answers cmd replies
      ((turn.setSubscriptions joined broker).replyNow cmd replies) where
  answered := rfl
  authenticated := authenticated
  handed := by
    simp [replyNow, setSubscriptions, Turn.write, pubSub]
  responses := by
    simp [replyNow, setSubscriptions, Turn.write, pubSub]
  single := by
    rw [pubSub]
    exact fun ordinary => Bool.noConfusion ordinary

theorem Turn.execute_answers
    (authenticated : turn.connection.authenticated = true)
    (ordinary : isPubSub cmd.name = false)
    (now : TimePoint) :
    ∃ replies,
      turn.Answers cmd replies (turn.execute reserve now cmd).state := by
  unfold execute
  split
  · exact ⟨_, answers_reply ordinary authenticated rfl rfl rfl⟩
  · simp only
    split
    · exact ⟨_, answers_reply ordinary authenticated rfl rfl rfl⟩
    · exact ⟨_, answers_reply ordinary authenticated rfl rfl rfl⟩

/-- Every command of an authenticated connection is answered. -/
theorem Turn.serve_answers
    {value : RespValue}
    (clock : Nat → TimePoint)
    (authenticated : turn.connection.authenticated = true)
    (parsed : parseCommand value = some cmd) :
    ∃ replies,
      turn.Answers cmd replies
        (turn.serve reserve clock value).state := by
  unfold serve
  simp only [parsed]
  by_cases auth : cmd.name = ascii "AUTH"
  · rw [if_pos auth]
    have ordinary : isPubSub cmd.name = false := by
      rw [auth]
      decide
    exact ⟨_, answers_reply ordinary
      (Connection.handleAuth_authenticated authenticated) rfl rfl rfl⟩
  rw [if_neg auth, if_neg (by simp [authenticated])]
  by_cases subscribe : cmd.name = ascii "SUBSCRIBE"
  · rw [if_pos subscribe]
    exact ⟨_, answers_replyNow (by simp [isPubSub, subscribe])
      authenticated⟩
  rw [if_neg subscribe]
  by_cases unsubscribe : cmd.name = ascii "UNSUBSCRIBE"
  · rw [if_pos unsubscribe]
    have pubSub : isPubSub cmd.name = true := by
      simp [isPubSub, unsubscribe]
    unfold Turn.unsubscribe
    split
    · refine ⟨[], rfl, authenticated, ?_, ?_, ?_⟩
      · simp [Control.state, RespValue.serializeAll]
      · simp [Control.state, pubSub]
      · rw [pubSub]
        exact fun ordinary => Bool.noConfusion ordinary
    · exact ⟨_, answers_replyNow pubSub authenticated⟩
  rw [if_neg unsubscribe]
  exact execute_answers authenticated
    (by simp [isPubSub, subscribe, unsubscribe]) _

/-- A command leaves the loop only by an exception. -/
theorem Turn.raised_of_serve_leave
    {value : RespValue}
    (parsed : parseCommand value = some cmd)
    (leaves : turn.serve reserve clock value = .leave next) :
    next.raised ≠ none := by
  unfold serve at leaves
  simp only [parsed] at leaves
  split at leaves
  · cases leaves
  · split at leaves
    · cases leaves
    · split at leaves
      · cases leaves
      · split at leaves
        · cases leaves
        · unfold execute at leaves
          split at leaves
          · cases leaves
            exact Option.some_ne_none _
          · simp only at leaves
            split at leaves
            · cases leaves
              exact Option.some_ne_none _
            · cases leaves

/-- Which replies of a turn have been handed over, and which collected. -/
structure Turn.Accounted (turn : Turn) : Prop where
  authenticated : turn.connection.authenticated = true
  handed :
    turn.handed.flatten =
      replyBytes (turn.answered.filter fun answer =>
        isPubSub answer.1.name)
  responses :
    turn.responses =
      replyBytes (turn.answered.filter fun answer =>
        !isPubSub answer.1.name)
  single :
    ∀ answer ∈ turn.answered,
      isPubSub answer.1.name = false → answer.2.length = 1

theorem Turn.accounted_begin
    {connection : Connection}
    (authenticated : connection.authenticated = true)
    (server : Server) :
    (connection.begin server).Accounted where
  authenticated := authenticated
  handed := rfl
  responses := rfl
  single := fun _ member => absurd member List.not_mem_nil

theorem Turn.Accounted.step
    {replies : List RespValue}
    (accounted : turn.Accounted)
    (answers : turn.Answers cmd replies next) :
    next.Accounted where
  authenticated := answers.authenticated
  handed := by
    rw [answers.handed, accounted.handed, answers.answered]
    cases pubSub : isPubSub cmd.name <;>
      simp [replyBytes, List.filter_append, pubSub]
  responses := by
    rw [answers.responses, accounted.responses, answers.answered]
    cases pubSub : isPubSub cmd.name <;>
      simp [replyBytes, List.filter_append, pubSub]
  single := by
    rw [answers.answered, List.forall_mem_append,
      List.forall_mem_singleton]
    exact ⟨accounted.single, answers.single⟩

/--
Serving commands accounts for every reply; all of them are answered unless one
throws.
-/
theorem Turn.Accounted.consumeItems
    {values : List RespValue}
    {commands : List Command}
    (accounted : turn.Accounted)
    (clock : Nat → TimePoint)
    (read : List.Forall₂ (Reads reserve) values commands) :
    match consumeItems (Turn.serve reserve clock) turn values with
    | .proceed final =>
        final.Accounted ∧
          final.answered.map Prod.fst =
            turn.answered.map Prod.fst ++ commands
    | .leave final => final.Accounted ∧ final.raised ≠ none := by
  induction read generalizing turn with
  | nil =>
      exact ⟨accounted, by simp⟩
  | @cons value cmd values commands head tail inductionHypothesis =>
      obtain ⟨replies, answers⟩ :=
        serve_answers clock accounted.authenticated head.parsed
      have kept := accounted.step answers
      rw [IncrementalDecoder.consumeItems]
      cases served : turn.serve reserve clock value with
      | leave final =>
          rw [served, Control.state_leave] at kept
          exact ⟨kept, raised_of_serve_leave head.parsed served⟩
      | proceed later =>
          rw [served, Control.state_proceed] at kept answers
          have rest := inductionHypothesis kept
          have commandsSoFar :
              later.answered.map Prod.fst ++ commands =
                turn.answered.map Prod.fst ++ cmd :: commands := by
            simp [answers.answered]
          rw [commandsSoFar] at rest
          exact rest

end Answering

section Reading

variable {reserve : Reserve}

/-- A read within the limit serves the drained values. -/
theorem Connection.handleData_eq
    (clock : Nat → TimePoint)
    (connection : Connection)
    (server : Server)
    {chunk : Bytes}
    (within :
      connection.parser.bufferedSize + chunk.length ≤
        connection.maxRequestBytes)
    {drained : Drained UInt8 RespValue CppException}
    (drains :
      drain (RespParser.decode reserve) (connection.parser.buf ++ chunk) =
        drained)
    (sound : drained.fault = none) :
    connection.handleData reserve clock server chunk =
      match
        consumeItems (Turn.serve reserve clock) (connection.begin server)
          drained.items with
      | .proceed final => (final.setParser ⟨drained.rest⟩).finish
      | .leave final => (final.setParser RespParser.empty).finish := by
  subst drains
  unfold handleData
  rw [if_neg (Nat.not_lt.mpr within), RespParser.feedEach_eq_consumeAll]
  cases served :
      consumeItems (Turn.serve reserve clock) (connection.begin server)
        (drain (RespParser.decode reserve)
          (connection.parser.buf ++ chunk)).items with
  | proceed final =>
      simp only [sound, consumeAll_of_proceed
        (RespParser.incremental_decode reserve) served]
  | leave final =>
      simp only [consumeAll_of_leave
        (RespParser.incremental_decode reserve) served]

/-- No pub/sub command stands behind another command. -/
def PubSubFirst (commands : List Command) : Prop :=
  commands.Pairwise fun first second =>
    isPubSub second.name = true → isPubSub first.name = true

instance (commands : List Command) : Decidable (PubSubFirst commands) :=
  inferInstanceAs (Decidable (List.Pairwise _ _))

/--
The commands that each of some reads completes.  They depend on the bytes alone:
those of the read, behind what the reads before it have left.
-/
def completedCommands (reserve : Reserve) :
    Bytes → List Bytes → List (List Command)
  | _, [] => []
  | buffered, chunk :: later =>
      let drained := drain (RespParser.decode reserve) (buffered ++ chunk)
      drained.items.filterMap parseCommand ::
        completedCommands reserve drained.rest later

/-- Sorting by a property changes nothing if the list is sorted by it. -/
theorem filter_append_filter_of_pairwise
    {Item : Type}
    {first : Item → Bool}
    {items : List Item}
    (sorted :
      items.Pairwise fun item later =>
        first later = true → first item = true) :
    items.filter first ++ items.filter (fun item => !first item) =
      items := by
  induction items with
  | nil =>
      rfl
  | cons item items inductionHypothesis =>
      obtain ⟨head, tail⟩ := List.pairwise_cons.mp sorted
      cases early : first item with
      | true =>
          simpa [early] using inductionHypothesis tail
      | false =>
          have none : ∀ other ∈ items, first other = false := by
            intro other member
            cases late : first other with
            | false =>
                rfl
            | true =>
                rw [head other member late] at early
                cases early
          have empty : items.filter first = [] := by
            simpa [List.filter_eq_nil_iff] using none
          have full :
              (items.filter fun other => !first other) = items := by
            simpa [List.filter_eq_self] using none
          simp [early, empty, full]

theorem replyBytes_append
    (first second : List (Command × List RespValue)) :
    replyBytes (first ++ second) =
      replyBytes first ++ replyBytes second :=
  List.flatMap_append

/-- What a read hands over: pub/sub replies first, then all others. -/
def Turn.HandsInTwoParts (turn : Turn) : Prop :=
  turn.handed.flatten =
    replyBytes (turn.answered.filter fun answer =>
        isPubSub answer.1.name) ++
      replyBytes (turn.answered.filter fun answer =>
        !isPubSub answer.1.name)

theorem Turn.Accounted.finish_handed
    {turn : Turn}
    (accounted : turn.Accounted)
    (parser : RespParser) :
    (turn.setParser parser).finish.HandsInTwoParts := by
  unfold HandsInTwoParts
  rw [Turn.finish_handed, Turn.finish_answered]
  change turn.handed.flatten ++ turn.responses = _
  rw [accounted.handed, accounted.responses]
  rfl

/-- A read of commands, none of which throws, answers all of them. -/
theorem Connection.handleData_spec
    (clock : Nat → TimePoint)
    (connection : Connection)
    (server : Server)
    {chunk : Bytes}
    {commands : List Command}
    (authenticated : connection.authenticated = true)
    (within :
      connection.parser.bufferedSize + chunk.length ≤
        connection.maxRequestBytes)
    {drained : Drained UInt8 RespValue CppException}
    (drains :
      drain (RespParser.decode reserve) (connection.parser.buf ++ chunk) =
        drained)
    (sound : drained.fault = none)
    (read : List.Forall₂ (Reads reserve) drained.items commands)
    (quiet :
      (connection.handleData reserve clock server chunk).raised = none) :
    let turn := connection.handleData reserve clock server chunk
    turn.answered.map Prod.fst = commands ∧
      turn.connection.parser = ⟨drained.rest⟩ ∧
      turn.connection.authenticated = true ∧
      turn.HandsInTwoParts := by
  have spec :=
    (Turn.accounted_begin authenticated server).consumeItems clock read
  rw [handleData_eq clock connection server within drains sound]
    at quiet ⊢
  cases served :
      consumeItems (Turn.serve reserve clock) (connection.begin server)
        drained.items with
  | proceed final =>
      rw [served] at spec
      refine ⟨?_, (Turn.finish_connection _).1,
        (Turn.finish_connection _).2.trans spec.1.authenticated, ?_⟩
      · rw [Turn.finish_answered]
        exact spec.2
      · exact spec.1.finish_handed _
  | leave final =>
      rw [served] at spec quiet
      rw [Turn.finish_raised] at quiet
      exact absurd quiet spec.2

/-- A read, with what others have done to the server and the output. -/
structure Visit where
  server : Server
  transport : Transport
  clock : Nat → TimePoint
  chunk : Bytes

/-- One read of a connection. -/
def Connection.serve
    (reserve : Reserve)
    (connection : Connection)
    (visit : Visit) :
    Turn :=
  { connection with transport := visit.transport }.handleData
    reserve visit.clock visit.server visit.chunk

/-- The reads of a connection, one after the other. -/
def Connection.serveAll (reserve : Reserve) :
    Connection → List Visit → List Turn
  | _, [] => []
  | connection, visit :: later =>
      connection.serve reserve visit ::
        serveAll reserve (connection.serve reserve visit).connection later

/-- No read exceeds the limit on buffered bytes. -/
def Connection.WithinLimits (reserve : Reserve) :
    Connection → List Visit → Prop
  | _, [] => True
  | connection, visit :: later =>
      connection.parser.bufferedSize + visit.chunk.length ≤
          connection.maxRequestBytes ∧
        WithinLimits reserve
          (connection.serve reserve visit).connection later

/--
Over any reads, each answers the commands that it completes and hands over its
pub/sub replies first.
-/
theorem Connection.serveAll_spec
    {connection : Connection}
    {visits : List Visit}
    {commands : List Command}
    (authenticated : connection.authenticated = true)
    (limits : connection.WithinLimits reserve visits)
    (sound :
      (drainChunks (RespParser.decode reserve) connection.parser.buf
        (visits.map Visit.chunk)).fault = none)
    (read :
      List.Forall₂ (Reads reserve)
        (drainChunks (RespParser.decode reserve) connection.parser.buf
          (visits.map Visit.chunk)).items
        commands)
    (quiet :
      ∀ turn ∈ connection.serveAll reserve visits, turn.raised = none) :
    ((connection.serveAll reserve visits).flatMap Turn.answered).map
          Prod.fst =
        commands ∧
      (connection.serveAll reserve visits).map
          (fun turn => turn.answered.map Prod.fst) =
        completedCommands reserve connection.parser.buf
          (visits.map Visit.chunk) ∧
      ∀ turn ∈ connection.serveAll reserve visits,
        turn.HandsInTwoParts := by
  induction visits generalizing connection commands with
  | nil =>
      simp only [List.map_nil, drainChunks,
        List.forall₂_nil_left_iff] at read
      subst read
      refine ⟨rfl, rfl, fun turn member => ?_⟩
      exact absurd member List.not_mem_nil
  | cons visit later inductionHypothesis =>
      obtain ⟨within, laterLimits⟩ := limits
      obtain ⟨turnQuiet, laterQuiet⟩ := List.forall_mem_cons.mp quiet
      simp only [List.map_cons, drainChunks] at sound read
      -- The chunk is drained without a fault, or the stream would have one.
      cases faulted :
          (drain (RespParser.decode reserve)
            (connection.parser.buf ++ visit.chunk)).fault with
      | some reason =>
          simp [faulted] at sound
      | none =>
          simp only [faulted, Drained.prepend_items,
            Drained.prepend_fault] at sound read
          generalize drains :
            drain (RespParser.decode reserve)
              (connection.parser.buf ++ visit.chunk) = drained
            at faulted sound read
          have first := List.forall₂_take drained.items.length read
          have second := List.forall₂_drop drained.items.length read
          rw [List.take_left] at first
          rw [List.drop_left] at second
          have spec :
              let turn := connection.serve reserve visit
              turn.answered.map Prod.fst = commands.take _ ∧
                turn.connection.parser = ⟨drained.rest⟩ ∧
                turn.connection.authenticated = true ∧
                turn.HandsInTwoParts :=
            handleData_spec visit.clock
              { connection with transport := visit.transport }
              visit.server authenticated within drains faulted first
              turnQuiet
          obtain ⟨answered, buffered, still, handed⟩ := spec
          have buffer :
              (connection.serve reserve visit).connection.parser.buf =
                drained.rest :=
            congrArg RespParser.buf buffered
          rw [← buffer] at sound second
          obtain ⟨laterAnswered, laterCompleted, laterHanded⟩ :=
            inductionHypothesis still laterLimits sound second laterQuiet
          refine ⟨?_, ?_, List.forall_mem_cons.mpr ⟨handed, laterHanded⟩⟩
          · rw [serveAll, List.flatMap_cons, List.map_append, laterAnswered,
              answered, List.take_append_drop]
          · simp only [serveAll, List.map_cons, completedCommands, drains]
            rw [laterCompleted, buffer, answered,
              filterMap_parseCommand_of_reads first]

/-- Parts that are already in order are handed over in order. -/
theorem Turn.HandsInTwoParts.in_order
    {turn : Turn}
    (handed : turn.HandsInTwoParts)
    (sorted : PubSubFirst (turn.answered.map Prod.fst)) :
    turn.handed.flatten = replyBytes turn.answered := by
  rw [handed, ← replyBytes_append,
    filter_append_filter_of_pairwise (List.pairwise_map.mp sorted)]

/--
Commands that an authenticated connection receives over any reads, within the
limits and without an exception, are answered in their order, provided that no
read completes a pub/sub command behind another command.
-/
theorem Connection.replies_in_order
    (reserve : Reserve)
    (connection : Connection)
    (visits : List Visit)
    (commands : List Command)
    (authenticated : connection.authenticated = true)
    (fresh : connection.parser = RespParser.empty)
    (stream :
      CommandStream reserve (visits.flatMap Visit.chunk) commands)
    (limits : connection.WithinLimits reserve visits)
    (quiet :
      ∀ turn ∈ connection.serveAll reserve visits, turn.raised = none)
    (sorted :
      ∀ completed ∈ completedCommands reserve [] (visits.map Visit.chunk),
        PubSubFirst completed) :
    let turns := connection.serveAll reserve visits
    (turns.flatMap Turn.answered).map Prod.fst = commands ∧
      (turns.flatMap Turn.handed).flatten =
        replyBytes (turns.flatMap Turn.answered) := by
  obtain ⟨values, drains, read⟩ := stream.exists_drain
  have buffer : connection.parser.buf = [] := by
    rw [fresh]
    rfl
  obtain ⟨items, fault, -⟩ :=
    drainChunks_eq_drain (RespParser.incremental_decode reserve)
      (RespParser.decode_nil reserve) (visits.map Visit.chunk)
  rw [List.nil_append, ← List.flatMap_def, drains] at items fault
  obtain ⟨answered, completed, handed⟩ :=
    serveAll_spec authenticated limits (by rw [buffer, fault])
      (by rw [buffer, items]; exact read) quiet
  rw [buffer] at completed
  refine ⟨answered, ?_⟩
  rw [← List.flatMap_id, List.flatMap_assoc, replyBytes,
    List.flatMap_assoc]
  refine List.flatMap_congr fun turn member => ?_
  rw [List.flatMap_id]
  refine (handed turn member).in_order (sorted _ ?_)
  rw [← completed]
  exact List.mem_map_of_mem member

/-- SUBSCRIBE and PING over two reads, cut inside the second command. -/
theorem Connection.replies_in_order_subscribe_ping :
    let subscribe : Command := ⟨ascii "SUBSCRIBE", [ascii "c"]⟩
    let ping : Command := ⟨ascii "PING", []⟩
    let server : Server :=
      ⟨{ Backend.initial with broker := some PubSubBroker.empty }, none⟩
    let client := create 0 [] 1048576 1048576
    let stream := AofPersistence.wire [subscribe, ping]
    let visits : List Visit :=
      [⟨server, client.transport, fun _ => 0, stream.take 37⟩,
        ⟨server, client.transport, fun _ => 0, stream.drop 37⟩]
    let turns := client.serveAll (fun _ => none) visits
    (turns.flatMap Turn.answered).map Prod.fst = [subscribe, ping] ∧
      (turns.flatMap Turn.handed).flatten =
        replyBytes (turns.flatMap Turn.answered) := by
  intro subscribe ping server client stream visits turns
  have loggable :
      ∀ cmd ∈ [subscribe, ping],
        AofPersistence.Loggable (fun _ => none) cmd := by
    simp only [List.forall_mem_cons, List.not_mem_nil, false_implies,
      implies_true, and_true]
    constructor
    · exact AofPersistence.loggable_of_lengths (by decide) (by decide) rfl
    · exact AofPersistence.loggable_of_lengths (by decide) (by decide) rfl
  have whole : visits.flatMap Visit.chunk = stream := by
    decide
  have commands :
      CommandStream (fun _ => none) (visits.flatMap Visit.chunk)
        [subscribe, ping] := by
    rw [whole]
    exact commandStream_wire loggable fun _ _ => rfl
  have limits : client.WithinLimits (fun _ => none) visits := by
    refine ⟨by decide, ?_, trivial⟩
    decide
  have quiet : ∀ turn ∈ turns, turn.raised = none := by
    decide
  have sorted :
      ∀ completed ∈
          completedCommands (fun _ => none) [] (visits.map Visit.chunk),
        PubSubFirst completed := by
    decide
  exact replies_in_order (fun _ => none) client visits [subscribe, ping]
    rfl rfl commands limits quiet sorted

/-- In one read, the reply of SUBSCRIBE overtakes that of PING. -/
theorem Connection.subscribe_overtakes_ping :
    let ping : Command := ⟨ascii "PING", []⟩
    let subscribe : Command := ⟨ascii "SUBSCRIBE", [ascii "c"]⟩
    let server : Server :=
      ⟨{ Backend.initial with broker := some PubSubBroker.empty }, none⟩
    let client := create 0 [] 1048576 1048576
    let visit : Visit :=
      ⟨server, client.transport, fun _ => 0,
        AofPersistence.wire [ping, subscribe]⟩
    let turns := client.serveAll (fun _ => none) [visit]
    (∀ turn ∈ turns, turn.raised = none) ∧
      (turns.flatMap Turn.answered).map Prod.fst = [ping, subscribe] ∧
      (turns.flatMap Turn.handed).flatten ≠
        replyBytes (turns.flatMap Turn.answered) := by
  decide

end Reading

end Vortek
