import Vortek.PipelineExceptions
import Vortek.Segmentation

namespace Vortek

open IncrementalDecoder

/-!
# Requests in flight

A `Backlog` is what a client that sends well-formed commands has still to see
answered, and how much of it has arrived.  It says which reads the connection
takes in full: those within the limit in which no command throws in front of
further bytes (`Backlog.answer_spec`).

Once bytes are lost the connection cannot answer all commands any more, since a
command found behind the start of its own frame ends behind that frame
(`answered_ne_of_lost`).
-/

/-- The bytes of a command, as a client sends them. -/
structure Request where
  frame : Bytes
  cmd : Command

/-- The bytes are a well-formed frame of the command and fit in storage. -/
structure Request.WellFormed
    (reserve : Reserve)
    (request : Request) :
    Prop where
  storage :
    ∀ count, count ≤ request.frame.length → reserve count = none
  framed :
    ∃ value,
      Frame .resp2 request.frame value ∧
        parseCommand value = some request.cmd

/-- The commands that are executed by the dispatcher. -/
def reachesDispatcher (cmd : Command) : Bool :=
  cmd.name != ascii "AUTH" && !isPubSub cmd.name

/-- The requests that are not answered, and what has arrived of them. -/
structure Backlog where
  course : Course
  requests : List Request
  received : Nat

namespace Backlog

/-- The bytes of the requests that wait. -/
def bytes (backlog : Backlog) : Bytes :=
  backlog.requests.flatMap Request.frame

/-- The commands of the requests that wait. -/
def commands (backlog : Backlog) : List Command :=
  backlog.requests.map Request.cmd

/-- The connection with the part of the backlog that has arrived. -/
def reader (backlog : Backlog) : ResettingReader.Reader Course UInt8 :=
  ⟨backlog.course, backlog.bytes.take backlog.received⟩

/--
Answer the requests that have arrived in full, unless one of them throws in
front of further bytes.
-/
def answer (reserve : Reserve) (clock : Nat → TimePoint) :
    Course → List Request → Nat → Option Backlog
  | course, [], received => some ⟨course, [], received⟩
  | course, request :: later, received =>
      if received < request.frame.length then
        some ⟨course, request :: later, received⟩
      else
        match course.serve reserve clock request.cmd.toResp with
        | .proceed next =>
            answer reserve clock next later
              (received - request.frame.length)
        | .leave next =>
            if received = request.frame.length then
              some ⟨next, later, 0⟩
            else
              none

/-- Take a read of so many bytes, if it is within the limit. -/
def read
    (reserve : Reserve)
    (clock : Nat → TimePoint)
    (maxRequestBytes : Nat)
    (backlog : Backlog)
    (size : Nat) :
    Option Backlog :=
  if maxRequestBytes < backlog.received + size then
    none
  else
    answer reserve clock backlog.course backlog.requests
      (backlog.received + size)

/-- Take reads of the given sizes, if all of them can be taken in full. -/
def readAll
    (reserve : Reserve)
    (clock : Nat → TimePoint)
    (maxRequestBytes : Nat) :
    Backlog → List Nat → Option Backlog
  | backlog, [] => some backlog
  | backlog, size :: later =>
      match backlog.read reserve clock maxRequestBytes size with
      | none => none
      | some next => next.readAll reserve clock maxRequestBytes later

end Backlog

section Serving

variable {reserve : Reserve} {clock : Nat → TimePoint}

/-- A command is recorded as answered, whatever the answer is. -/
theorem Turn.serve_answered
    (turn : Turn)
    (value : RespValue) :
    (turn.serve reserve clock value).state.answered.map Prod.fst =
      turn.answered.map Prod.fst ++ (parseCommand value).toList := by
  unfold serve
  cases parseCommand value with
  | none =>
      simp
  | some cmd =>
      simp only
      split
      · simp [reply]
      · split
        · simp [reply]
        · split
          · simp [subscribe, replyNow, Turn.write, setSubscriptions]
          · split
            · unfold unsubscribe
              split <;>
                simp [replyNow, Turn.write, setSubscriptions]
            · unfold execute
              split
              · simp [fail, reply]
              · simp only
                split <;> simp [fail, reply]

theorem Course.answered_serve
    (course : Course)
    (value : RespValue) :
    (course.serve reserve clock value).state.answered =
      course.answered ++ (parseCommand value).toList := by
  rw [state_serve, Turn.course, Turn.serve_answered]
  simp [begin, Connection.begin]

/-- UNSUBSCRIBE dispatches nothing. -/
theorem Turn.unsubscribe_dispatched
    (turn : Turn)
    (cmd : Command) :
    (turn.unsubscribe cmd).dispatched = turn.dispatched := by
  unfold unsubscribe
  split
  · rfl
  · rfl

/-- Which commands of an authenticated connection reach the dispatcher. -/
theorem Turn.serve_dispatched
    {turn : Turn}
    {value : RespValue}
    {cmd : Command}
    (authenticated : turn.connection.authenticated = true)
    (reads : Reads reserve value cmd) :
    (turn.serve reserve clock value).state.dispatched.map Dispatch.cmd =
      turn.dispatched.map Dispatch.cmd ++
        [cmd].filter reachesDispatcher := by
  cases pubSub : isPubSub cmd.name with
  | false =>
      rw [(serve_spec clock authenticated reads pubSub).2.1]
      simp [dispatchable, List.filter_cons, reachesDispatcher, pubSub]
  | true =>
      have skipped : [cmd].filter reachesDispatcher = [] := by
        simp [reachesDispatcher, pubSub]
      have names :
          cmd.name = ascii "SUBSCRIBE" ∨
            cmd.name = ascii "UNSUBSCRIBE" := by
        simpa [isPubSub] using pubSub
      unfold serve
      rw [skipped, reads.parsed, List.append_nil]
      simp only [authenticated]
      rcases names with name | name
      · rw [if_neg (by rw [name]; decide), if_neg (by decide),
          if_pos name]
        rfl
      · rw [if_neg (by rw [name]; decide), if_neg (by decide),
          if_neg (by rw [name]; decide), if_pos name]
        exact congrArg _ (turn.unsubscribe_dispatched cmd)

/-- What an authenticated connection does with a command, on its course. -/
theorem Course.serve_spec
    (clock : Nat → TimePoint)
    {course : Course}
    {value : RespValue}
    {cmd : Command}
    (authenticated : course.authenticated = true)
    (reads : Reads reserve value cmd) :
    let next := (course.serve reserve clock value).state
    next.authenticated = true ∧
      next.answered = course.answered ++ [cmd] ∧
      next.dispatched =
        course.dispatched ++ [cmd].filter reachesDispatcher := by
  have start : course.begin.connection.authenticated = true :=
    authenticated
  obtain ⟨replies, answers⟩ :
      ∃ replies,
        course.begin.Answers cmd replies
          (course.begin.serve reserve
            (clockBehind clock course.answered.length) value).state :=
    Turn.serve_answers _ start reads.parsed
  refine ⟨?_, ?_, ?_⟩
  · rw [state_serve]
    exact answers.authenticated
  · rw [answered_serve, reads.parsed]
    rfl
  · rw [state_serve, Turn.course, Turn.serve_dispatched start reads]
    rfl

/-- The parser's value of a command is answered as its logged form. -/
theorem Course.serve_toResp
    (course : Course)
    {value : RespValue}
    {cmd : Command}
    (reads : Reads reserve value cmd) :
    course.serve reserve clock value =
      course.serve reserve clock cmd.toResp := by
  have same : parseCommand cmd.toResp = parseCommand value := by
    rw [reads.parsed]
    exact parseCommand_toResp reads.loggable.capital
  unfold Course.serve Turn.serve
  rw [same]

end Serving

section Requests

variable {reserve : Reserve}

/-- What the parser makes of a well-formed request. -/
theorem Request.WellFormed.exists_value
    {request : Request}
    (wellFormed : request.WellFormed reserve) :
    ∃ value,
      Frame .resp2 request.frame value ∧
        RespParser.decode reserve request.frame = .item value [] ∧
        Reads reserve value request.cmd := by
  obtain ⟨value, framed, parsed⟩ := wellFormed.framed
  have read := RespParser.parserFrame_of_resp2 framed wellFormed.storage
  have decoded := RespParser.decode_frame_append read []
  rw [List.append_nil] at decoded
  have storable := (RespParser.lineSafe_and_storable_of_frame read).2
  exact ⟨value, framed, decoded, parsed,
    AofPersistence.loggable_of_parseCommand storable parsed⟩

/-- The request of a command in the form that is logged. -/
def Request.ofCommand (cmd : Command) : Request :=
  ⟨cmd.toResp.serialize, cmd⟩

theorem Request.wellFormed_ofCommand
    {cmd : Command}
    (loggable : AofPersistence.Loggable reserve cmd)
    (storage :
      ∀ count,
        count ≤ (ofCommand cmd).frame.length → reserve count = none) :
    (ofCommand cmd).WellFormed reserve where
  storage := storage
  framed :=
    ⟨cmd.toResp,
      RespParser.frame_serialize RespParser.canonical_resp2
        RespValue.lineSafe_bulkArray loggable.storable,
      parseCommand_toResp loggable.capital⟩

/-- A frame has at least one byte. -/
theorem Request.WellFormed.length_pos
    {request : Request}
    (wellFormed : request.WellFormed reserve) :
    0 < request.frame.length := by
  obtain ⟨value, -, decoded, -⟩ := wellFormed.exists_value
  exact (RespParser.incremental_decode reserve).itemShrinks decoded

end Requests

namespace Backlog

variable {reserve : Reserve} {clock : Nat → TimePoint}

/--
A backlog of these commands: those answered and dispatched so far and those of
the requests make them up.
-/
structure Accounts
    (reserve : Reserve)
    (commands : List Command)
    (backlog : Backlog) :
    Prop where
  authenticated : backlog.course.authenticated = true
  answered : backlog.course.answered ++ backlog.commands = commands
  dispatched :
    backlog.course.dispatched ++ backlog.commands.filter reachesDispatcher =
      commands.filter reachesDispatcher
  wellFormed : ∀ request ∈ backlog.requests, request.WellFormed reserve
  received : backlog.received ≤ backlog.bytes.length

/-- The first request has not arrived in full. -/
def Waits (backlog : Backlog) : Prop :=
  ∀ request ∈ backlog.requests.head?,
    backlog.received < request.frame.length

/-- The first request is answered, with or without an exception. -/
theorem Accounts.serve
    {commands : List Command}
    {course : Course}
    {request : Request}
    {later : List Request}
    {received : Nat}
    (accounts :
      Accounts reserve commands ⟨course, request :: later, received⟩)
    (clock : Nat → TimePoint)
    (arrived : request.frame.length ≤ received) :
    Accounts reserve commands
      ⟨(course.serve reserve clock request.cmd.toResp).state, later,
        received - request.frame.length⟩ := by
  obtain ⟨wellFormed, others⟩ :=
    List.forall_mem_cons.mp accounts.wellFormed
  obtain ⟨value, -, -, reads⟩ := wellFormed.exists_value
  obtain ⟨authenticated, answered, dispatched⟩ :=
    Course.serve_spec clock accounts.authenticated reads
  rw [course.serve_toResp reads] at authenticated answered dispatched
  refine ⟨authenticated, ?_, ?_, others, ?_⟩
  · rw [← accounts.answered]
    simp [answered, Backlog.commands]
  · rw [← accounts.dispatched]
    simp only [dispatched, Backlog.commands, List.append_assoc,
      ← List.filter_append]
    rfl
  · have bound := accounts.received
    simp only [bytes, List.flatMap_cons, List.length_append] at bound ⊢
    omega

/-- Bytes that are not yet a whole request are kept. -/
theorem read_of_cut
    {request : Request}
    {received : Nat}
    (course : Course)
    (later : Bytes)
    (wellFormed : request.WellFormed reserve)
    (cut : received < request.frame.length) :
    ResettingReader.read (RespParser.decode reserve)
        (Course.serve reserve clock) ⟨course, []⟩
        ((request.frame ++ later).take received) =
      ⟨course, (request.frame ++ later).take received⟩ := by
  obtain ⟨value, -, decoded, -⟩ := wellFormed.exists_value
  have split := List.take_append_drop received request.frame
  have waiting :
      RespParser.decode reserve (request.frame.take received) = .more := by
    apply decode_eq_more_of_cut (RespParser.incremental_decode reserve)
    · rw [split]
      exact decoded
    · intro nothing
      have short := List.drop_eq_nil_iff.mp nothing
      omega
  rw [List.take_append_of_le_length (Nat.le_of_lt cut)]
  simp only [ResettingReader.read, List.nil_append]
  rw [consumeAll_more waiting]

/-- A whole request is answered first. -/
theorem read_of_whole
    {request : Request}
    (course : Course)
    (later : Bytes)
    (wellFormed : request.WellFormed reserve) :
    ResettingReader.read (RespParser.decode reserve)
        (Course.serve reserve clock) ⟨course, []⟩
        (request.frame ++ later) =
      match course.serve reserve clock request.cmd.toResp with
      | .proceed next =>
          ResettingReader.read (RespParser.decode reserve)
            (Course.serve reserve clock) ⟨next, []⟩ later
      | .leave next => ⟨next, []⟩ := by
  obtain ⟨value, -, decoded, reads⟩ := wellFormed.exists_value
  have first :=
    (RespParser.incremental_decode reserve).itemStable decoded later
  simp only [ResettingReader.read, List.nil_append]
  rw [consumeAll_item (RespParser.incremental_decode reserve) first,
    course.serve_toResp reads]
  cases course.serve reserve clock request.cmd.toResp with
  | proceed next =>
      rfl
  | leave next =>
      rfl

/-- What a read within the limit does to a backlog. -/
theorem answer_spec
    (clock : Nat → TimePoint)
    {commands : List Command}
    {course : Course}
    {requests : List Request}
    {received : Nat}
    (accounts : Accounts reserve commands ⟨course, requests, received⟩) :
    let before : Backlog := ⟨course, requests, received⟩
    let after :=
      ResettingReader.read (RespParser.decode reserve)
        (Course.serve reserve clock) ⟨course, []⟩
        (before.bytes.take received)
    match answer reserve clock course requests received with
    | some next =>
        next.Accounts reserve commands ∧
          next.Waits ∧
          after = next.reader ∧
          next.bytes.drop next.received = before.bytes.drop received
    | none =>
        ∃ lost : Backlog,
          lost.Accounts reserve commands ∧
            0 < lost.received ∧
            after = ⟨lost.course, []⟩ ∧
            lost.bytes.drop lost.received =
              before.bytes.drop received := by
  induction requests generalizing course received with
  | nil =>
      have none : received = 0 := Nat.le_zero.mp accounts.received
      subst none
      refine ⟨accounts, ?_, rfl, rfl⟩
      intro request member
      cases member
  | cons request later inductionHypothesis =>
      obtain ⟨wellFormed, others⟩ :=
        List.forall_mem_cons.mp accounts.wellFormed
      by_cases cut : received < request.frame.length
      · rw [answer, if_pos cut]
        refine ⟨accounts, ?_, ?_, rfl⟩
        · intro first member
          obtain rfl := Option.mem_some_iff.mp member
          exact cut
        · exact read_of_cut course (later.flatMap Request.frame)
            wellFormed cut
      · have arrived := Nat.not_lt.mp cut
        have served := accounts.serve clock arrived
        have shape :
            (⟨course, request :: later, received⟩ : Backlog).bytes =
              request.frame ++ later.flatMap Request.frame :=
          List.flatMap_cons
        simp only [shape]
        rw [List.take_append, List.take_of_length_le arrived,
          List.drop_append, List.drop_eq_nil_of_le arrived,
          List.nil_append, read_of_whole course _ wellFormed, answer,
          if_neg cut]
        cases outcome :
          course.serve reserve clock request.cmd.toResp with
        | proceed next =>
            rw [outcome] at served
            exact inductionHypothesis served
        | leave next =>
            rw [outcome] at served
            by_cases whole : received = request.frame.length
            · simp only [if_pos whole]
              have nothing : received - request.frame.length = 0 := by
                omega
              rw [nothing] at served
              rw [nothing]
              refine ⟨served, ?_, rfl, rfl⟩
              intro first member
              exact (others first (List.mem_of_mem_head? member)).length_pos
            · simp only [if_neg whole]
              exact ⟨_, served, by simp only; omega, rfl, rfl⟩

end Backlog

section Losing

variable {reserve : Reserve} {clock : Nat → TimePoint}
variable {course final : Course} {stream : Bytes}

/-- What has been answered stays answered. -/
theorem answered_of_leads
    (leads :
      ResettingReader.Leads (RespParser.decode reserve)
        (Course.serve reserve clock) course stream final) :
    ∃ more, final.answered = course.answered ++ more := by
  induction leads with
  | waits answer =>
      exact ⟨[], (List.append_nil _).symm⟩
  | @serves course final stream rest value answer skipped later
      inductionHypothesis =>
      obtain ⟨more, same⟩ := inductionHypothesis
      refine ⟨(parseCommand value).toList ++ more, ?_⟩
      rw [same, course.answered_serve, List.append_assoc]
  | faults answer dropped later inductionHypothesis =>
      exact inductionHypothesis

/--
Where the command of the first request is found behind the start of its frame,
the start of the next request is lost as well.
-/
theorem Request.WellFormed.exists_lost
    {request : Request}
    (wellFormed : request.WellFormed reserve)
    {copy later left : Bytes}
    {value : RespValue}
    (copied : Frame (.parser reserve) copy value)
    (parsed : parseCommand value = some request.cmd)
    {offset : Nat}
    (behind : 0 < offset)
    (found : (request.frame ++ later).drop offset = copy ++ left) :
    later ≠ [] ∧ ∃ lost, 0 < lost ∧ left = later.drop lost := by
  obtain ⟨_, framed, -, reads⟩ := wellFormed.exists_value
  have overtakes :=
    overtakes_frame framed reads.parsed copied parsed behind found
  refine ⟨?_, _, Nat.sub_pos_of_lt overtakes,
    (drop_append_of_found found (Nat.le_of_lt overtakes)).symm⟩
  -- The copy is not empty and ends behind the frame.
  rintro rfl
  have shrinks :=
    (RespParser.incremental_decode reserve).itemShrinks
      (RespParser.decode_frame_append copied left)
  rw [← found, List.append_nil, List.length_drop] at shrinks
  have lengths := congrArg List.length found
  rw [List.append_nil, List.length_drop, List.length_append] at lengths
  omega

/--
A connection that has lost the start of the first request does not answer the
requests: wherever it finds the command of a request, it has lost the start of
the next one as well.
-/
theorem answered_ne_of_lost
    (leads :
      ResettingReader.Leads (RespParser.decode reserve)
        (Course.serve reserve clock) course stream final)
    {requests : List Request}
    (wellFormed : ∀ request ∈ requests, request.WellFormed reserve)
    (outstanding : requests ≠ [])
    {offset : Nat}
    (behind : 0 < offset)
    (shape : stream = (requests.flatMap Request.frame).drop offset) :
    final.answered ≠ course.answered ++ requests.map Request.cmd := by
  induction leads generalizing requests offset with
  | waits answer =>
      intro same
      have none := List.append_right_eq_self.mp same.symm
      exact outstanding (List.map_eq_nil_iff.mp none)
  | faults answer dropped later inductionHypothesis =>
      apply inductionHypothesis wellFormed outstanding
        (Nat.add_pos_left behind dropped)
      rw [shape, List.drop_drop]
  | @serves course final stream rest value answer skipped later
      inductionHypothesis =>
      obtain ⟨copy, split, copied⟩ :=
        RespParser.exists_frame_of_decode answer
      cases parsed : parseCommand value with
      | none =>
          have same :=
            Connection.serve_of_not_command reserve clock course value
              (by simp [parsed])
          rw [same] at inductionHypothesis
          apply inductionHypothesis wellFormed outstanding
            (Nat.add_pos_left behind (copy.length + skipped))
          rw [← List.drop_drop, ← shape, split, ← List.drop_drop,
            List.drop_left]
      | some cmd =>
          intro all
          obtain ⟨more, grown⟩ := answered_of_leads later
          have lists : cmd :: more = requests.map Request.cmd := by
            rw [course.answered_serve, parsed, all, List.append_assoc]
              at grown
            exact (List.append_cancel_left grown).symm
          cases requests with
          | nil =>
              exact outstanding rfl
          | cons request others =>
              obtain ⟨rfl, sameMore⟩ := List.cons.inj lists
              obtain ⟨first, rest⟩ := List.forall_mem_cons.mp wellFormed
              have found :=
                (List.flatMap_cons ▸ shape).symm.trans split
              obtain ⟨left, lost, positive, remains⟩ :=
                first.exists_lost copied parsed behind found
              refine inductionHypothesis rest ?_
                (Nat.add_pos_left positive skipped) ?_ ?_
              · rintro rfl
                exact left rfl
              · rw [remains, List.drop_drop]
              · rw [grown, sameMore]

end Losing

end Vortek
