import Vortek.Backlog

namespace Vortek

/-!
# The limit on requests

Before a read is parsed, the bytes buffered so far and all bytes of the read are
held against `max_request_bytes`.  A read may bring several commands, so short
commands can be refused together.  The reads that a connection takes without a
refusal and without losing a command are those that take its backlog along.
-/

/-- The read is answered with the refusal, after which the socket closes. -/
def Turn.Refuses (turn : Turn) : Prop :=
  turn.connection.closeAfterWrite = true ∧
    turn.handed = [(err "ERR max request size exceeded").serialize]

namespace Connection

/-- No read is refused, and every command is answered and executed. -/
structure ServesAll
    (reserve : Reserve)
    (clock : Nat → TimePoint)
    (connection : Connection)
    (server : Server)
    (arrivals : List Arrival)
    (commands : List Command) :
    Prop where
  unrefused :
    ∀ turn ∈ connection.receive reserve clock server arrivals,
      ¬turn.Refuses
  answered :
    answeredCommands (connection.receive reserve clock server arrivals) =
      commands
  dispatched :
    dispatchedCommands
        (connection.receive reserve clock server arrivals) =
      commands.filter reachesDispatcher

/--
Before every read, the bytes that have arrived of the incomplete request and
those of the read are within the limit, and no command throws in front of
further bytes of its read.
-/
def TakesAll
    (reserve : Reserve)
    (clock : Nat → TimePoint)
    (connection : Connection)
    (server : Server)
    (requests : List Request)
    (arrivals : List Arrival) :
    Prop :=
  (Backlog.readAll reserve clock connection.maxRequestBytes
    ⟨(connection.begin server).course [] [], requests, 0⟩
    (arrivals.map fun arrival => arrival.chunk.length)).isSome = true

section Limits

variable {reserve : Reserve} {clock : Nat → TimePoint}

/-- A read above the limit is refused. -/
theorem refuses_of_exceeds
    {connection : Connection}
    (server : Server)
    {arrival : Arrival}
    (exceeds :
      connection.maxRequestBytes <
        connection.parser.bufferedSize + arrival.chunk.length) :
    (connection.arrive reserve clock server arrival).Refuses := by
  unfold arrive handleData
  rw [if_pos exceeds]
  exact ⟨rfl, rfl⟩

/-- Reads that are not refused are within the limit. -/
theorem receivesWithin_of_not_refuses
    {connection : Connection}
    {server : Server}
    {arrivals : List Arrival}
    (unrefused :
      ∀ turn ∈ connection.receive reserve clock server arrivals,
        ¬turn.Refuses) :
    connection.ReceivesWithin reserve clock server arrivals := by
  induction arrivals generalizing clock connection server with
  | nil =>
      trivial
  | cons arrival later inductionHypothesis =>
      obtain ⟨first, others⟩ := List.forall_mem_cons.mp unrefused
      refine ⟨?_, inductionHypothesis others⟩
      exact Nat.not_lt.mp fun exceeds =>
        first (refuses_of_exceeds server exceeds)

/-- A connection behind which a client has a backlog of these commands. -/
structure Owes
    (reserve : Reserve)
    (connection : Connection)
    (server : Server)
    (answered dispatched commands : List Command)
    (backlog : Backlog)
    (arrivals : List Arrival) :
    Prop where
  reader : connection.reader server answered dispatched = backlog.reader
  accounts : backlog.Accounts reserve commands
  waits : backlog.Waits
  brings : Brings arrivals (backlog.bytes.drop backlog.received)
  writing : connection.closeAfterWrite = false

section Owing

variable {connection : Connection} {server : Server}
variable {answered dispatched commands : List Command}
variable {backlog : Backlog} {arrival : Arrival} {later : List Arrival}

/-- What the parser holds is what has arrived of the first request. -/
theorem Owes.bufferedSize
    {arrivals : List Arrival}
    (owes :
      connection.Owes reserve server answered dispatched commands backlog
        arrivals) :
    connection.parser.bufferedSize = backlog.received := by
  have buffer := congrArg ResettingReader.Reader.buffer owes.reader
  have lengths := congrArg List.length buffer
  rwa [Backlog.reader, List.length_take,
    Nat.min_eq_left owes.accounts.received] at lengths

/-- A read within the limit, on the backlog and on the connection. -/
theorem Owes.arrive
    (owes :
      connection.Owes reserve server answered dispatched commands backlog
        (arrival :: later))
    (clock : Nat → TimePoint)
    (within :
      backlog.received + arrival.chunk.length ≤
        connection.maxRequestBytes) :
    let turn :=
      connection.arrive reserve (clockBehind clock answered.length) server
        arrival
    let received := backlog.received + arrival.chunk.length
    Backlog.Accounts reserve commands
        ⟨backlog.course, backlog.requests, received⟩ ∧
      turn.connection.reader turn.server
          (answered ++ turn.answered.map Prod.fst)
          (dispatched ++ turn.dispatched.map Dispatch.cmd) =
        ResettingReader.read (RespParser.decode reserve)
          (Course.serve reserve clock) ⟨backlog.course, []⟩
          (backlog.bytes.take received) ∧
      Brings later (backlog.bytes.drop received) ∧
      turn.connection.closeAfterWrite = false ∧
      turn.connection.maxRequestBytes = connection.maxRequestBytes := by
  obtain ⟨shape, -, -, tail⟩ := owes.brings.of_cons
  have lengths := congrArg List.length shape
  rw [List.length_drop, List.length_append] at lengths
  have bound := owes.accounts.received
  have fits :
      connection.parser.bufferedSize + arrival.chunk.length ≤
        connection.maxRequestBytes := by
    rw [owes.bufferedSize]
    exact within
  have settings :=
    handleData_afterData reserve (clockBehind clock answered.length)
      { connection with transport := arrival.transport } server
      arrival.chunk
  refine ⟨?_, ?_, ?_, ?_, settings.maxRequestBytes⟩
  · refine { owes.accounts with received := ?_ }
    change backlog.received + arrival.chunk.length ≤ backlog.bytes.length
    omega
  · rw [← read_reader reserve clock connection server arrival answered
      dispatched fits, owes.reader, List.take_add, shape, List.take_left]
    rfl
  · rw [← List.drop_drop, shape, List.drop_left]
    exact tail
  · refine Eq.trans settings.closeAfterWrite ?_
    rw [owes.writing, Bool.false_or]
    exact decide_eq_false (Nat.not_lt.mpr fits)

/-- A read that is taken in full leaves the backlog that it leaves. -/
theorem Owes.next
    (owes :
      connection.Owes reserve server answered dispatched commands backlog
        (arrival :: later))
    (within :
      backlog.received + arrival.chunk.length ≤
        connection.maxRequestBytes)
    {rest : Backlog}
    (answers :
      Backlog.answer reserve clock backlog.course backlog.requests
          (backlog.received + arrival.chunk.length) =
        some rest) :
    let turn :=
      connection.arrive reserve (clockBehind clock answered.length) server
        arrival
    turn.connection.Owes reserve turn.server
      (answered ++ turn.answered.map Prod.fst)
      (dispatched ++ turn.dispatched.map Dispatch.cmd)
      commands rest later := by
  obtain ⟨accounts, reader, brings, writing, -⟩ :=
    owes.arrive clock within
  have spec := Backlog.answer_spec clock accounts
  rw [answers] at spec
  obtain ⟨next, waits, after, left⟩ := spec
  refine ⟨reader.trans after, next, waits, ?_, writing⟩
  rw [left]
  exact brings

/-- When all bytes have arrived, everything is answered. -/
theorem Owes.finished
    (owes :
      connection.Owes reserve server answered dispatched commands backlog
        []) :
    answered = commands ∧
      dispatched = commands.filter reachesDispatcher := by
  have all : backlog.bytes.length ≤ backlog.received :=
    List.drop_eq_nil_iff.mp owes.brings.joined.symm
  have none : backlog.requests = [] := by
    cases requests : backlog.requests with
    | nil =>
        rfl
    | cons request others =>
        have waiting := owes.waits request (by rw [requests]; rfl)
        rw [Backlog.bytes, requests, List.flatMap_cons,
          List.length_append] at all
        omega
  have course := congrArg ResettingReader.Reader.state owes.reader
  have answers := owes.accounts.answered
  have dispatches := owes.accounts.dispatched
  rw [Backlog.commands, none, List.map_nil, List.append_nil] at answers
  rw [Backlog.commands, none, List.map_nil, List.filter_nil,
    List.append_nil] at dispatches
  rw [← dispatches, ← answers]
  change _ = backlog.reader.state.answered ∧
    _ = backlog.reader.state.dispatched
  rw [← course]
  simp [Connection.reader, Turn.course, Connection.begin]

/-- If every read is taken in full, every command is answered. -/
theorem Owes.serves
    {arrivals : List Arrival}
    (owes :
      connection.Owes reserve server answered dispatched commands backlog
        arrivals)
    (takes :
      (backlog.readAll reserve clock connection.maxRequestBytes
        (arrivals.map fun arrival => arrival.chunk.length)).isSome =
        true) :
    let turns :=
      connection.receive reserve (clockBehind clock answered.length) server
        arrivals
    (∀ turn ∈ turns, ¬turn.Refuses) ∧
      answered ++ answeredCommands turns = commands ∧
      dispatched ++ dispatchedCommands turns =
        commands.filter reachesDispatcher := by
  induction arrivals
    generalizing connection server answered dispatched backlog with
  | nil =>
      obtain ⟨answers, dispatches⟩ := owes.finished
      simp [receive, answeredCommands, dispatchedCommands, answers,
        dispatches]
  | cons arrival later inductionHypothesis =>
      simp only [List.map_cons, Backlog.readAll, Backlog.read] at takes
      by_cases exceeds :
          connection.maxRequestBytes <
            backlog.received + arrival.chunk.length
      · simp [exceeds] at takes
      · rw [if_neg exceeds] at takes
        have within := Nat.not_lt.mp exceeds
        cases answers :
          Backlog.answer reserve clock backlog.course backlog.requests
            (backlog.received + arrival.chunk.length) with
        | none =>
            simp [answers] at takes
        | some rest =>
            simp only [answers] at takes
            obtain ⟨-, -, -, writing, limit⟩ :=
              owes.arrive clock within
            have next := owes.next within answers
            rw [← limit] at takes
            obtain ⟨unrefused, all, dispatches⟩ :=
              inductionHypothesis next takes
            rw [← clockBehind_answered] at unrefused all dispatches
            refine ⟨?_, ?_, ?_⟩
            · intro turn member
              rcases List.mem_cons.mp member with rfl | member
              · rintro ⟨closes, -⟩
                rw [writing] at closes
                cases closes
              · exact unrefused turn member
            · rw [receive, answeredCommands, List.flatMap_cons,
                ← List.append_assoc]
              exact all
            · rw [receive, dispatchedCommands, List.flatMap_cons,
                ← List.append_assoc]
              exact dispatches

/-- Once bytes are lost, the commands are not all answered. -/
theorem answered_ne_of_reader
    {arrivals : List Arrival}
    {lost : Backlog}
    (reader :
      connection.reader server answered dispatched = ⟨lost.course, []⟩)
    (accounts : lost.Accounts reserve commands)
    (behind : 0 < lost.received)
    (brings : Brings arrivals (lost.bytes.drop lost.received))
    (unrefused :
      ∀ turn ∈
          connection.receive reserve (clockBehind clock answered.length)
            server arrivals,
        ¬turn.Refuses) :
    answered ++
        answeredCommands
          (connection.receive reserve (clockBehind clock answered.length)
            server arrivals) ≠
      commands := by
  have log :=
    (readAll_reader clock answered dispatched
      (receivesWithin_of_not_refuses unrefused)).1
  have leads :=
    ResettingReader.leads_of_cuts (RespParser.framed_decode reserve)
      (Course.serve reserve clock) lost.course brings
  have outstanding : lost.requests ≠ [] := by
    intro none
    have bound := accounts.received
    rw [Backlog.bytes, none] at bound
    exact absurd behind (Nat.not_lt.mpr bound)
  rw [reader] at log
  rw [← log, ← accounts.answered]
  exact answered_ne_of_lost leads accounts.wellFormed outstanding behind
    rfl

/-- If every command is answered, every read is taken in full. -/
theorem Owes.takes
    {arrivals : List Arrival}
    (owes :
      connection.Owes reserve server answered dispatched commands backlog
        arrivals)
    (unrefused :
      ∀ turn ∈
          connection.receive reserve (clockBehind clock answered.length)
            server arrivals,
        ¬turn.Refuses)
    (all :
      answered ++
          answeredCommands
            (connection.receive reserve
              (clockBehind clock answered.length) server arrivals) =
        commands) :
    (backlog.readAll reserve clock connection.maxRequestBytes
      (arrivals.map fun arrival => arrival.chunk.length)).isSome =
      true := by
  induction arrivals
    generalizing connection server answered dispatched backlog with
  | nil =>
      rfl
  | cons arrival later inductionHypothesis =>
      obtain ⟨first, others⟩ := List.forall_mem_cons.mp unrefused
      have within :
          backlog.received + arrival.chunk.length ≤
            connection.maxRequestBytes := by
        rw [← owes.bufferedSize]
        exact Nat.not_lt.mp fun exceeds =>
          first (refuses_of_exceeds server exceeds)
      rw [receive, answeredCommands, List.flatMap_cons,
        ← List.append_assoc] at all
      rw [clockBehind_answered] at all others
      simp only [List.map_cons, Backlog.readAll, Backlog.read,
        if_neg (Nat.not_lt.mpr within)]
      cases answers :
        Backlog.answer reserve clock backlog.course backlog.requests
          (backlog.received + arrival.chunk.length) with
      | none =>
          obtain ⟨accounts, reader, brings, -, -⟩ :=
            owes.arrive clock within
          have spec := Backlog.answer_spec clock accounts
          rw [answers] at spec
          obtain ⟨lost, owed, behind, after, left⟩ := spec
          exact absurd all
            (answered_ne_of_reader (reader.trans after) owed behind
              (by rw [left]; exact brings) others)
      | some rest =>
          obtain ⟨-, -, -, -, limit⟩ := owes.arrive clock within
          rw [← limit]
          exact inductionHypothesis (owes.next within answers) others all

end Owing

end Limits

/--
Over reads that bring well-formed requests to an authenticated connection, no
read is refused and every command is executed exactly if, at every read, what
has arrived of the incomplete request and what the read brings are within the
limit, and no command throws in front of further bytes of its read.
-/
theorem servesAll_iff
    (reserve : Reserve)
    (clock : Nat → TimePoint)
    (connection : Connection)
    (server : Server)
    (requests : List Request)
    (arrivals : List Arrival)
    (authenticated : connection.authenticated = true)
    (fresh : connection.parser = RespParser.empty)
    (writing : connection.closeAfterWrite = false)
    (wellFormed : ∀ request ∈ requests, request.WellFormed reserve)
    (brings : Brings arrivals (requests.flatMap Request.frame)) :
    connection.ServesAll reserve clock server arrivals
        (requests.map Request.cmd) ↔
      connection.TakesAll reserve clock server requests arrivals := by
  have owes :
      connection.Owes reserve server [] [] (requests.map Request.cmd)
        ⟨(connection.begin server).course [] [], requests, 0⟩ arrivals := by
    refine ⟨?_, ⟨authenticated, rfl, rfl, wellFormed, Nat.zero_le _⟩, ?_,
      brings, writing⟩
    · rw [reader, fresh]
      rfl
    · intro request member
      exact (wellFormed request (List.mem_of_mem_head? member)).length_pos
  constructor
  · intro serves
    apply owes.takes
    · rw [List.length_nil, clockBehind_zero]
      exact serves.unrefused
    · rw [List.length_nil, clockBehind_zero]
      exact serves.answered
  · intro takes
    obtain ⟨unrefused, answered, dispatched⟩ := owes.serves takes
    rw [List.length_nil, clockBehind_zero] at unrefused answered dispatched
    exact ⟨unrefused, answered, dispatched⟩

/-- Two PING commands of as many bytes as are allowed, read one by one. -/
theorem servesAll_ping_ping :
    let ping : Command := ⟨ascii "PING", []⟩
    let frame := (Request.ofCommand ping).frame
    let client := create 0 [] 14 1048576
    client.ServesAll (fun _ => none) (fun _ => 0) ⟨Backend.initial, none⟩
      [⟨client.transport, frame.take 5⟩, ⟨client.transport, frame.drop 5⟩,
        ⟨client.transport, frame⟩]
      [ping, ping] := by
  intro ping frame client
  have wellFormed :
      ∀ request ∈ [Request.ofCommand ping, Request.ofCommand ping],
        request.WellFormed fun _ => none := by
    intro request member
    obtain rfl : request = Request.ofCommand ping := by
      simpa using member
    exact Request.wellFormed_ofCommand
      (AofPersistence.loggable_of_lengths (by decide) (by decide) rfl)
      fun _ _ => rfl
  exact (servesAll_iff (fun _ => none) (fun _ => 0) client
    ⟨Backend.initial, none⟩ [Request.ofCommand ping, Request.ofCommand ping]
    _ rfl rfl rfl wellFormed ⟨by decide, by decide⟩).mpr (by
      change _ = true
      decide +kernel)

/-- The same commands are refused if one read brings both. -/
theorem refuses_ping_ping :
    let ping : Command := ⟨ascii "PING", []⟩
    let requests := [Request.ofCommand ping, Request.ofCommand ping]
    let client := create 0 [] 14 1048576
    let arrivals : List Arrival :=
      [⟨client.transport, requests.flatMap Request.frame⟩]
    let turns :=
      client.receive (fun _ => none) (fun _ => 0) ⟨Backend.initial, none⟩
        arrivals
    (∀ request ∈ requests,
        request.WellFormed (fun _ => none) ∧
          request.frame.length ≤ client.maxRequestBytes) ∧
      Brings arrivals (requests.flatMap Request.frame) ∧
      client.authenticated = true ∧
      turns.flatMap Turn.handed =
        [(err "ERR max request size exceeded").serialize] ∧
      (∀ turn ∈ turns, turn.Refuses) ∧
      answeredCommands turns = [] := by
  intro ping requests client arrivals turns
  refine ⟨?_, ⟨by decide, by decide⟩, rfl, by decide +kernel, ?_,
    by decide +kernel⟩
  · intro request member
    obtain rfl : request = Request.ofCommand ping := by
      simpa [requests] using member
    refine ⟨?_, by decide⟩
    exact Request.wellFormed_ofCommand
      (AofPersistence.loggable_of_lengths (by decide) (by decide) rfl)
      fun _ _ => rfl
  · intro turn member
    obtain rfl := List.mem_singleton.mp member
    exact refuses_of_exceeds _ (by decide)

end Connection

end Vortek
