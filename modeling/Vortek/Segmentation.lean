import Vortek.CommandFrames
import Vortek.ResettingReader
import Vortek.Session

namespace Vortek

open IncrementalDecoder

/-!
# Streams in different segments

The network decides how many bytes a read brings.  On a malformed value, a value
that is not a command or an exception, `handle_data` resets the parser and so
drops the bytes that have arrived behind it, but not those that have not.

What a connection carries from read to read, apart from its output, is a
`Course`.  On courses a connection is a reader that drops its buffer, and the
rules for such readers say when the segments do not show.
-/

/-- What a connection carries from read to read, without its output. -/
structure Course where
  id : Nat
  requirepass : Bytes
  authenticated : Bool
  subscribedChannels : ByteSet
  server : Server
  answered : List Command
  dispatched : List Command

/-- The course of a turn behind reads that answered and dispatched before. -/
def Turn.course
    (answered dispatched : List Command)
    (turn : Turn) :
    Course where
  id := turn.connection.id
  requirepass := turn.connection.requirepass
  authenticated := turn.connection.authenticated
  subscribedChannels := turn.connection.subscribedChannels
  server := turn.server
  answered := answered ++ turn.answered.map Prod.fst
  dispatched := dispatched ++ turn.dispatched.map Dispatch.cmd

/-- The clock as commands behind `answered` others find it. -/
def clockBehind
    (clock : Nat → TimePoint)
    (answered : Nat) :
    Nat → TimePoint :=
  fun n => clock (answered + n)

@[simp] theorem clockBehind_zero
    (clock : Nat → TimePoint) :
    clockBehind clock 0 = clock := by
  funext n
  rw [clockBehind, Nat.zero_add]

theorem clockBehind_clockBehind
    (clock : Nat → TimePoint)
    (answered more : Nat) :
    clockBehind (clockBehind clock answered) more =
      clockBehind clock (answered + more) := by
  funext n
  rw [clockBehind, clockBehind, clockBehind, Nat.add_assoc]

namespace Course

/-- A turn with nothing to its record. -/
def begin (course : Course) : Turn :=
  let created := Connection.create course.id course.requirepass 0 0
  { created with
    authenticated := course.authenticated
    subscribedChannels := course.subscribedChannels }.begin course.server

/--
One value taken from the parser.  The command answered as the `n`-th of the
connection finds the clock at `clock n`.
-/
def serve
    (reserve : Reserve)
    (clock : Nat → TimePoint)
    (course : Course)
    (value : RespValue) :
    Control Course :=
  let onward := Turn.course course.answered course.dispatched
  match
    course.begin.serve reserve
      (clockBehind clock course.answered.length) value with
  | .proceed turn => .proceed (onward turn)
  | .leave turn => .leave (onward turn)

end Course

theorem Course.course_begin
    (course : Course) :
    course.begin.course course.answered course.dispatched = course := by
  obtain ⟨id, requirepass, authenticated, joined, server, answered,
    dispatched⟩ := course
  simp [begin, Connection.begin, Connection.create, Turn.course]

section Following

variable {reserve : Reserve} {clock : Nat → TimePoint}
variable {first second : Turn}
variable {answered later dispatched others : List Command}

/-- Two turns on one course, each behind its own reads. -/
structure Turn.Together
    (answered later dispatched others : List Command)
    (first second : Turn) :
    Prop where
  id : first.connection.id = second.connection.id
  requirepass :
    first.connection.requirepass = second.connection.requirepass
  authenticated :
    first.connection.authenticated = second.connection.authenticated
  subscribedChannels :
    first.connection.subscribedChannels =
      second.connection.subscribedChannels
  server : first.server = second.server
  answered :
    answered ++ first.answered.map Prod.fst =
      later ++ second.answered.map Prod.fst
  dispatched :
    dispatched ++ first.dispatched.map Dispatch.cmd =
      others ++ second.dispatched.map Dispatch.cmd

namespace Turn.Together

theorem iff_course_eq :
    Together answered later dispatched others first second ↔
      first.course answered dispatched = second.course later others := by
  rw [course, course, Course.mk.injEq]
  constructor
  · rintro ⟨id, requirepass, authenticated, joined, server, count, log⟩
    exact ⟨id, requirepass, authenticated, joined, server, count, log⟩
  · rintro ⟨id, requirepass, authenticated, joined, server, count, log⟩
    exact ⟨id, requirepass, authenticated, joined, server, count, log⟩

variable
  (together : Together answered later dispatched others first second)
include together

/-- One more answer on both sides. -/
theorem answer
    (cmd : Command)
    (values : List RespValue) :
    answered ++ (first.answered ++ [(cmd, values)]).map Prod.fst =
      later ++ (second.answered ++ [(cmd, values)]).map Prod.fst := by
  simp only [List.map_append, ← List.append_assoc, together.answered]

/-- Both sides find the clock at the same reading. -/
theorem count :
    answered.length + first.answered.length =
      later.length + second.answered.length := by
  have lengths := congrArg List.length together.answered
  simpa only [List.length_append, List.length_map] using lengths

theorem reply
    (cmd : Command)
    (value : RespValue) :
    Together answered later dispatched others
      (first.reply cmd value) (second.reply cmd value) :=
  { together with answered := together.answer cmd [value] }

theorem fail
    (cmd : Command)
    (exception : CppException) :
    Together answered later dispatched others
      (first.fail cmd exception) (second.fail cmd exception) :=
  { together.reply cmd (exceptionReply exception) with }

theorem replyNow
    (cmd : Command)
    (values : List RespValue) :
    Together answered later dispatched others
      (first.replyNow cmd values) (second.replyNow cmd values) :=
  { together with answered := together.answer cmd values }

theorem setSubscriptions
    (joined : ByteSet)
    (broker : Option PubSubBroker) :
    Together answered later dispatched others
      (first.setSubscriptions joined broker)
      (second.setSubscriptions joined broker) :=
  { together with
    subscribedChannels := rfl
    server := by
      simp only [Turn.setSubscriptions, together.server] }

/-- AUTH looks at the password only. -/
theorem auth (cmd : Command) :
    (first.connection.handleAuth cmd).1 =
        (second.connection.handleAuth cmd).1 ∧
      Together answered later dispatched others
        { first with connection := (first.connection.handleAuth cmd).2 }
        { second with
          connection := (second.connection.handleAuth cmd).2 } := by
  unfold Connection.handleAuth
  rw [together.requirepass]
  split
  · split
    · exact ⟨rfl, together⟩
    · split
      · exact ⟨rfl, together⟩
      · exact ⟨rfl,
          { together with
            requirepass := rfl
            authenticated := rfl }⟩
  · exact ⟨rfl, together⟩

theorem subscribe (cmd : Command) :
    Together answered later dispatched others
      (first.subscribe cmd) (second.subscribe cmd) := by
  have alike :
      first.connection.handleSubscribe first.server.backend.broker cmd =
        second.connection.handleSubscribe second.server.backend.broker
          cmd := by
    unfold Connection.handleSubscribe
    rw [together.id, together.subscribedChannels, together.server]
  unfold Turn.subscribe
  rw [alike]
  exact (together.setSubscriptions _ _).replyNow cmd _

theorem unsubscribe (cmd : Command) :
    Together answered later dispatched others
      (first.unsubscribe cmd) (second.unsubscribe cmd) := by
  have alike (broker : PubSubBroker) :
      first.connection.handleUnsubscribe broker cmd =
        second.connection.handleUnsubscribe broker cmd := by
    unfold Connection.handleUnsubscribe
    rw [together.id, together.subscribedChannels]
  unfold Turn.unsubscribe
  rw [together.server]
  split
  · exact
      { together with
        server := rfl
        answered := together.answer cmd [] }
  · simp only [alike]
    exact (together.setSubscriptions _ _).replyNow cmd _

/-- A command is logged and dispatched alike. -/
theorem execute
    (now : TimePoint)
    (cmd : Command) :
    (first.execute reserve now cmd).Agree
      (Together answered later dispatched others)
      (second.execute reserve now cmd) := by
  unfold Turn.execute
  rw [together.server]
  cases second.server.logWrite reserve cmd with
  | error exception =>
      exact .leave (together.fail cmd exception)
  | ok logged =>
      let dispatch := Dispatch.mk now logged.backend cmd
      have both :
          Together answered later dispatched others
            { first with
              server := (logged.dispatch now cmd).2
              dispatched := first.dispatched ++ [dispatch] }
            { second with
              server := (logged.dispatch now cmd).2
              dispatched := second.dispatched ++ [dispatch] } :=
        { together with
          server := rfl
          dispatched := by
            simp only [List.map_append, ← List.append_assoc,
              together.dispatched] }
      simp only
      cases (logged.dispatch now cmd).1 with
      | error exception =>
          exact .leave (both.fail cmd exception)
      | ok value =>
          exact .proceed (both.reply cmd value)

/-- Turns on one course do the same with a value and stay on one course. -/
theorem serve
    (reserve : Reserve)
    (clock : Nat → TimePoint)
    (value : RespValue) :
    (first.serve reserve (clockBehind clock answered.length) value).Agree
      (Together answered later dispatched others)
      (second.serve reserve (clockBehind clock later.length) value) := by
  unfold Turn.serve
  cases parseCommand value with
  | none =>
      exact .leave { together with }
  | some cmd =>
      simp only [clockBehind, together.authenticated, together.count]
      split
      · obtain ⟨same, both⟩ := together.auth cmd
        rw [same]
        exact .proceed (both.reply cmd _)
      · split
        · exact .proceed (together.reply cmd _)
        · split
          · exact .proceed (together.subscribe cmd)
          · split
            · exact .proceed (together.unsubscribe cmd)
            · exact together.execute _ cmd

end Turn.Together

/-- Serving a value takes a turn along its course. -/
theorem Course.serve_agree
    (turn : Turn)
    (value : RespValue) :
    (turn.serve reserve (clockBehind clock answered.length) value).Agree
      (fun next course => next.course answered dispatched = course)
      ((turn.course answered dispatched).serve reserve clock value) := by
  have together :
      Turn.Together answered (turn.course answered dispatched).answered
        dispatched (turn.course answered dispatched).dispatched
        turn (turn.course answered dispatched).begin :=
    Turn.Together.iff_course_eq.mpr (Course.course_begin _).symm
  have both := together.serve reserve clock value
  unfold Course.serve
  generalize turn.serve reserve _ value = control at both ⊢
  generalize Turn.serve reserve _ (Course.begin _) value = copy at both ⊢
  cases both with
  | proceed holds =>
      exact .proceed (Turn.Together.iff_course_eq.mp holds)
  | leave holds =>
      exact .leave (Turn.Together.iff_course_eq.mp holds)

/-- Where a value takes the course. -/
theorem Course.state_serve
    (course : Course)
    (value : RespValue) :
    (course.serve reserve clock value).state =
      (course.begin.serve reserve
        (clockBehind clock course.answered.length) value).state.course
          course.answered course.dispatched := by
  unfold Course.serve
  dsimp only
  cases course.begin.serve reserve
    (clockBehind clock course.answered.length) value with
  | proceed turn =>
      rfl
  | leave turn =>
      rfl

/-- The end of a turn is no part of its course. -/
@[simp] theorem Turn.course_finish
    (turn : Turn) :
    turn.finish.course answered dispatched =
      turn.course answered dispatched := by
  unfold finish
  split
  · rfl
  · rfl

/-- One read within the limit, on the course of the connection. -/
theorem Connection.handleData_course
    (connection : Connection)
    (server : Server)
    (chunk : Bytes)
    (within :
      connection.parser.bufferedSize + chunk.length ≤
        connection.maxRequestBytes) :
    let turn :=
      connection.handleData reserve (clockBehind clock answered.length) server
        chunk
    ResettingReader.read (RespParser.decode reserve)
        (Course.serve reserve clock)
        ⟨(connection.begin server).course answered dispatched,
          connection.parser.buf⟩
        chunk =
      ⟨turn.course answered dispatched, turn.connection.parser.buf⟩ := by
  have inStep :=
    consumeAll_inStep (RespParser.decode reserve)
      (Turn.serve reserve (clockBehind clock answered.length))
      (Course.serve reserve clock)
      (fun turn course => turn.course answered dispatched = course)
      (fun _ => False)
      (fun _ _ escaped => escaped)
      (by
        intro turn course value same
        subst same
        exact Or.inr (Course.serve_agree turn value))
      (rfl :
        (connection.begin server).course answered dispatched =
          (connection.begin server).course answered dispatched)
      (connection.parser.buf ++ chunk)
  obtain ⟨state, rest, ending⟩ := inStep.resolve_left not_false
  unfold handleData
  rw [if_neg (Nat.not_lt.mpr within), RespParser.feedEach_eq_consumeAll]
  simp only [ResettingReader.read, ← state, ← rest, ← ending]
  cases (consumeAll (RespParser.decode reserve)
    (Turn.serve reserve (clockBehind clock answered.length))
    (connection.begin server)
    (connection.parser.buf ++ chunk)).ending with
  | exhausted =>
      simp only [Turn.course_finish, Turn.finish_connection]
      rfl
  | left =>
      simp only [Turn.course_finish, Turn.finish_connection]
      rfl
  | faulted exception =>
      simp only [Turn.course_finish, Turn.finish_connection]
      rfl

end Following

/-- A completed read, with what has become of the output by then. -/
structure Arrival where
  transport : Transport
  chunk : Bytes

/-- The size of `read_buf_`. -/
def readBufSize : Nat := 4096

/-- The reads bring the stream, each as much as fits in `read_buf_`. -/
def Brings (arrivals : List Arrival) (stream : Bytes) : Prop :=
  ResettingReader.Cuts readBufSize stream (arrivals.map Arrival.chunk)

/-- The commands that turns answer. -/
def answeredCommands (turns : List Turn) : List Command :=
  turns.flatMap fun turn => turn.answered.map Prod.fst

/-- The commands that turns hand to the dispatcher. -/
def dispatchedCommands (turns : List Turn) : List Command :=
  turns.flatMap fun turn => turn.dispatched.map Dispatch.cmd

namespace Connection

/-- One read of a connection. -/
def arrive
    (reserve : Reserve)
    (clock : Nat → TimePoint)
    (connection : Connection)
    (server : Server)
    (arrival : Arrival) :
    Turn :=
  { connection with transport := arrival.transport }.handleData
    reserve clock server arrival.chunk

/--
The reads of a connection, one after the other.  The command answered as the
`n`-th of all finds the clock at `clock n`.
-/
def receive (reserve : Reserve) :
    (Nat → TimePoint) → Connection → Server → List Arrival → List Turn
  | _, _, _, [] => []
  | clock, connection, server, arrival :: later =>
      let turn := connection.arrive reserve clock server arrival
      turn ::
        receive reserve (clockBehind clock turn.answered.length)
          turn.connection turn.server later

/-- None of the reads reaches the limit on buffered bytes. -/
def ReceivesWithin (reserve : Reserve) :
    (Nat → TimePoint) → Connection → Server → List Arrival → Prop
  | _, _, _, [] => True
  | clock, connection, server, arrival :: later =>
      let turn := connection.arrive reserve clock server arrival
      connection.parser.bufferedSize + arrival.chunk.length ≤
          connection.maxRequestBytes ∧
        ReceivesWithin reserve (clockBehind clock turn.answered.length)
          turn.connection turn.server later

/-- The connection as a reader on its course. -/
def reader
    (connection : Connection)
    (server : Server)
    (answered dispatched : List Command) :
    ResettingReader.Reader Course UInt8 :=
  ⟨(connection.begin server).course answered dispatched,
    connection.parser.buf⟩

/--
Behind the byte at which the stream first breaks off, by a malformed value, a
value that is not a command or an exception, no command is dispatched: neither
from the next byte on nor from any byte that a read can reach beyond it.
-/
def SilentBehindErrors
    (reserve : Reserve)
    (clock : Nat → TimePoint)
    (connection : Connection)
    (server : Server)
    (stream : Bytes) :
    Prop :=
  ResettingReader.SilentBehindBreak (RespParser.decode reserve)
    (Course.serve reserve clock) Course.dispatched readBufSize
    (connection.reader server [] []) stream

section Receiving

variable {reserve : Reserve} {clock : Nat → TimePoint}

/-- A read within the limit takes the reader to that of the next read. -/
theorem read_reader
    (reserve : Reserve)
    (clock : Nat → TimePoint)
    (connection : Connection)
    (server : Server)
    (arrival : Arrival)
    (answered dispatched : List Command)
    (within :
      connection.parser.bufferedSize + arrival.chunk.length ≤
        connection.maxRequestBytes) :
    let turn :=
      connection.arrive reserve (clockBehind clock answered.length) server
        arrival
    ResettingReader.read (RespParser.decode reserve)
        (Course.serve reserve clock)
        (connection.reader server answered dispatched) arrival.chunk =
      turn.connection.reader turn.server
        (answered ++ turn.answered.map Prod.fst)
        (dispatched ++ turn.dispatched.map Dispatch.cmd) := by
  refine Eq.trans
    (handleData_course
      { connection with transport := arrival.transport } server
      arrival.chunk within) ?_
  simp [reader, Turn.course, Connection.begin, arrive]

/-- The clock behind a read. -/
theorem clockBehind_answered
    (clock : Nat → TimePoint)
    (answered : List Command)
    (turn : Turn) :
    clockBehind (clockBehind clock answered.length) turn.answered.length =
      clockBehind clock
        (answered ++ turn.answered.map Prod.fst).length := by
  rw [clockBehind_clockBehind, List.length_append, List.length_map]

/-- What the reads answer and dispatch is the log of the reader. -/
theorem readAll_reader
    (clock : Nat → TimePoint)
    {connection : Connection}
    {server : Server}
    {arrivals : List Arrival}
    (answered dispatched : List Command)
    (within :
      connection.ReceivesWithin reserve
        (clockBehind clock answered.length) server arrivals) :
    let turns :=
      connection.receive reserve (clockBehind clock answered.length) server
        arrivals
    let final :=
      ResettingReader.readAll (RespParser.decode reserve)
        (Course.serve reserve clock)
        (connection.reader server answered dispatched)
        (arrivals.map Arrival.chunk)
    final.state.answered = answered ++ answeredCommands turns ∧
      final.state.dispatched =
        dispatched ++ dispatchedCommands turns := by
  induction arrivals
    generalizing answered connection server dispatched with
  | nil =>
      simp [receive, answeredCommands, dispatchedCommands,
        ResettingReader.readAll, reader, Turn.course, Connection.begin]
  | cons arrival later inductionHypothesis =>
      obtain ⟨fits, rest⟩ := within
      have read :=
        read_reader reserve clock connection server arrival answered
          dispatched fits
      rw [clockBehind_answered] at rest
      obtain ⟨answers, dispatches⟩ := inductionHypothesis _ _ rest
      simp only [receive, List.map_cons, ResettingReader.readAll,
        clockBehind_answered]
      rw [read, answers, dispatches]
      simp only [answeredCommands, dispatchedCommands, List.flatMap_cons,
        List.append_assoc, and_self]

/-- A stream that fits as a whole fits in any segments. -/
theorem receivesWithin_of_length
    (reserve : Reserve)
    (clock : Nat → TimePoint)
    {connection : Connection}
    (server : Server)
    {arrivals : List Arrival}
    {stream : Bytes}
    (brings : Brings arrivals stream)
    (fits :
      connection.parser.bufferedSize + stream.length ≤
        connection.maxRequestBytes) :
    connection.ReceivesWithin reserve clock server arrivals := by
  induction arrivals generalizing clock connection server stream with
  | nil =>
      trivial
  | cons arrival later inductionHypothesis =>
      obtain ⟨rfl, -, -, tail⟩ := brings.of_cons
      rw [List.length_append] at fits
      have within :
          connection.parser.bufferedSize + arrival.chunk.length ≤
            connection.maxRequestBytes := by
        omega
      have buffered :=
        ResettingReader.length_buffer_read
          (RespParser.framed_decode reserve) (Course.serve reserve clock)
          (connection.reader server [] []) arrival.chunk
      rw [read_reader reserve clock connection server arrival [] [] within,
        List.length_nil, clockBehind_zero] at buffered
      change (connection.arrive reserve clock server
          arrival).connection.parser.bufferedSize ≤
        connection.parser.bufferedSize + arrival.chunk.length at buffered
      have limit :
          (connection.arrive reserve clock server
              arrival).connection.maxRequestBytes =
            connection.maxRequestBytes :=
        (handleData_afterData reserve clock
          { connection with transport := arrival.transport } server
          arrival.chunk).maxRequestBytes
      refine ⟨within, inductionHypothesis _ _ tail ?_⟩
      rw [limit]
      omega

/-- A value that is not a command leaves the course as it is. -/
theorem serve_of_not_command
    (reserve : Reserve)
    (clock : Nat → TimePoint)
    (course : Course)
    (value : RespValue)
    (other : ¬(parseCommand value).isSome = true) :
    course.serve reserve clock value = .leave course := by
  have none := Option.not_isSome_iff_eq_none.mp other
  unfold Course.serve Turn.serve
  rw [none]
  exact congrArg Control.leave course.course_begin

end Receiving

/--
However a stream is brought by reads that stay within the limits, the same
commands are dispatched, exactly if no command is dispatched behind the first
error.
-/
theorem segments_do_not_show_iff
    (reserve : Reserve)
    (clock : Nat → TimePoint)
    (connection : Connection)
    (server : Server)
    (stream : Bytes)
    (waiting : RespParser.decode reserve connection.parser.buf = .more)
    (limits :
      ∀ arrivals,
        Brings arrivals stream →
        connection.ReceivesWithin reserve clock server arrivals) :
    (∀ first second,
      Brings first stream →
      Brings second stream →
      dispatchedCommands
          (connection.receive reserve clock server first) =
        dispatchedCommands
          (connection.receive reserve clock server second)) ↔
      connection.SilentBehindErrors reserve clock server stream := by
  have blind :=
    ResettingReader.blind_iff Course.dispatched
      (RespParser.framed_decode reserve)
      (serve_of_not_command reserve clock)
      (fun _ _ _ _ _ _ => RespParser.not_parseCommand_of_adjacent)
      (by decide : 1 < readBufSize)
      (connection.reader server [] []) waiting stream
  have log (arrivals : List Arrival) (brings : Brings arrivals stream) :
      (ResettingReader.readAll (RespParser.decode reserve)
          (Course.serve reserve clock) (connection.reader server [] [])
          (arrivals.map Arrival.chunk)).state.dispatched =
        dispatchedCommands
          (connection.receive reserve clock server arrivals) := by
    have within := limits arrivals brings
    rw [← clockBehind_zero clock] at within
    have logged := (readAll_reader clock [] [] within).2
    rwa [List.length_nil, clockBehind_zero] at logged
  refine Iff.trans ?_ blind
  constructor
  · intro same first second firstCuts secondCuts
    -- Chunks are reads with any output.
    let reads (chunks : List Bytes) : List Arrival :=
      chunks.map fun chunk => ⟨connection.transport, chunk⟩
    have chunks_reads (chunks : List Bytes) :
        (reads chunks).map Arrival.chunk = chunks := by
      simp [reads, Function.comp_def]
    have brings {chunks : List Bytes}
        (cuts : ResettingReader.Cuts readBufSize stream chunks) :
        Brings (reads chunks) stream := by
      rw [Brings, chunks_reads]
      exact cuts
    have firstLog := log (reads first) (brings firstCuts)
    have secondLog := log (reads second) (brings secondCuts)
    rw [chunks_reads] at firstLog secondLog
    rw [firstLog, secondLog]
    exact same _ _ (brings firstCuts) (brings secondCuts)
  · intro same first second firstBrings secondBrings
    have firstLog := log first firstBrings
    have secondLog := log second secondBrings
    rw [← firstLog, ← secondLog]
    exact same _ _ firstBrings secondBrings

/-- A client that sends PING, and then a byte that starts no value. -/
theorem segments_do_not_show_ping_garbage :
    let connection := create 0 [] 1048576 1048576
    let server : Server := ⟨Backend.initial, none⟩
    let ping := ascii "*1\r\n$4\r\nPING\r\n"
    dispatchedCommands
        (connection.receive (fun _ => none) (fun _ => 0) server
          [⟨connection.transport, ping ++ ascii "!"⟩]) =
      dispatchedCommands
        (connection.receive (fun _ => none) (fun _ => 0) server
          [⟨connection.transport, ping.take 5⟩,
            ⟨connection.transport, ping.drop 5 ++ ascii "!"⟩]) := by
  intro connection server ping
  refine (segments_do_not_show_iff (fun _ => none) (fun _ => 0) connection
    server (ping ++ ascii "!") rfl ?_).mpr ?_ _ _ ?_ ?_
  · intro arrivals brings
    exact receivesWithin_of_length _ _ server brings (by decide)
  · intro next rest reached skipped _
    have short :
        (match ResettingReader.advance
            (RespParser.decode fun _ => none)
            (Course.serve (fun _ => none) (fun _ => 0))
            (connection.reader server [] []).state
            (connection.reader server [] []).buffer
            (ping ++ ascii "!") with
          | .through _ => []
          | .broken _ rest => rest) = [] := by
      decide +kernel
    rw [reached] at short
    simp only at short
    rw [short, List.drop_nil]
    exact .through rfl rfl
  · exact ⟨by decide, by decide⟩
  · exact ⟨by decide, by decide⟩

/--
Behind a byte that starts no value, PING is dropped if it comes in the same read
and dispatched if it comes in the next one.
-/
theorem segments_decide_ping :
    let connection := create 0 [] 1048576 1048576
    let server : Server := ⟨Backend.initial, none⟩
    let ping := ascii "*1\r\n$4\r\nPING\r\n"
    let joined : List Arrival :=
      [⟨connection.transport, ascii "!" ++ ping⟩]
    let apart : List Arrival :=
      [⟨connection.transport, ascii "!"⟩, ⟨connection.transport, ping⟩]
    connection.authenticated = true ∧
      Brings joined (ascii "!" ++ ping) ∧
      Brings apart (ascii "!" ++ ping) ∧
      connection.ReceivesWithin (fun _ => none) (fun _ => 0) server
        joined ∧
      connection.ReceivesWithin (fun _ => none) (fun _ => 0) server
        apart ∧
      dispatchedCommands
          (connection.receive (fun _ => none) (fun _ => 0) server
            joined) =
        [] ∧
      dispatchedCommands
          (connection.receive (fun _ => none) (fun _ => 0) server
            apart) =
        [⟨ascii "PING", []⟩] := by
  intro connection server ping joined apart
  have joinedBrings : Brings joined (ascii "!" ++ ping) :=
    ⟨by decide, by decide⟩
  have apartBrings : Brings apart (ascii "!" ++ ping) :=
    ⟨by decide, by decide⟩
  refine ⟨rfl, joinedBrings, apartBrings, ?_, ?_, ?_, ?_⟩
  · exact receivesWithin_of_length _ _ server joinedBrings (by decide)
  · exact receivesWithin_of_length _ _ server apartBrings (by decide)
  · decide +kernel
  · decide +kernel

end Connection

end Vortek
