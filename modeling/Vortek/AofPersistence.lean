import Vortek.Dispatcher
import Vortek.RespStream

namespace Vortek

open IncrementalDecoder

/-!
# The append-only file

`log` appends the wire form of a command and `replay` reads the file through
the parser and dispatches what it finds.  Writing and reading the file is
assumed to be faithful, so the file is its contents.

Whatever the file holds, `replay` dispatches the commands among the values that
the parser returns and keeps the bytes of those values (`replay_eq`).  A log cut
at any byte loses only the command that the cut falls into.
-/

/-- The contents of the file behind `path_`. -/
structure AofPersistence where
  file : Bytes
  deriving DecidableEq, Repr

namespace AofPersistence

/-- The names whose commands are logged. -/
def writes : List Bytes :=
  [ascii "SET", ascii "DEL", ascii "EXPIRE", ascii "PERSIST",
    ascii "INCR", ascii "INCRBY", ascii "DECR", ascii "DECRBY",
    ascii "LPUSH", ascii "RPUSH", ascii "LPOP", ascii "RPOP",
    ascii "SADD", ascii "SREM",
    ascii "HSET", ascii "HDEL"]

/-- The commands that are appended to the file. -/
def isWriteCommand (name : Bytes) : Bool :=
  writes.contains name

/-- Append a command; the array's storage is reserved first. -/
def log
    (reserve : Reserve)
    (aof : AofPersistence)
    (cmd : Command) :
    Except CppException AofPersistence :=
  match reserve (1 + cmd.args.length) with
  | some exception => .error exception
  | none => .ok ⟨aof.file ++ cmd.toResp.serialize⟩

/-- Append commands one after the other. -/
def logAll (reserve : Reserve) :
    AofPersistence → List Command → Except CppException AofPersistence
  | aof, [] => .ok aof
  | aof, cmd :: later => do
      let next ← aof.log reserve cmd
      logAll reserve next later

/-- What the replay loop carries: the store, the commands and their count. -/
structure ReplayLoop where
  backend : Backend
  dispatched : List Command
  count : Nat

/-- One value of the file; what is not a command is skipped. -/
def replayValue
    (clock : Nat → TimePoint)
    (loop : ReplayLoop)
    (value : RespValue) :
    Control ReplayLoop :=
  match parseCommand value with
  | none => .proceed loop
  | some cmd =>
      -- An exception of the handler is caught and the command counts.
      .proceed
        { backend := (loop.backend.dispatch (clock loop.count) cmd).2
          dispatched := loop.dispatched ++ [cmd]
          count := loop.count + 1 }

/-- The outcome of a replay. -/
structure Replayed where
  backend : Backend
  dispatched : List Command
  count : Nat
  parseError : Bool
  truncatedTo : Option Nat
  aof : AofPersistence

/--
Replay the file.  The `n`-th command is dispatched at the clock reading
`clock n`.
-/
def replay
    (reserve : Reserve)
    (clock : Nat → TimePoint)
    (aof : AofPersistence)
    (backend : Backend) :
    Replayed :=
  if aof.file.isEmpty then
    ⟨backend, [], 0, false, none, aof⟩
  else
    let loop :=
      RespParser.feedEach reserve (replayValue clock) ⟨backend, [], 0⟩
        RespParser.empty aof.file
    let parseError :=
      match loop.ending with
      | .faulted _ => true
      | _ => false
    let trailingBytes := loop.rest.length
    let validBytes := aof.file.length - trailingBytes
    let torn := parseError || decide (0 < trailingBytes)
    { backend := loop.state.backend
      dispatched := loop.state.dispatched
      count := loop.state.count
      parseError := parseError
      truncatedTo := if torn then some validBytes else none
      aof := if torn then ⟨aof.file.take validBytes⟩ else aof }

/-- Dispatch commands in order, whatever each of them answers or throws. -/
def dispatchAll (clock : Nat → TimePoint) :
    Nat → Backend → List Command → Backend
  | _, backend, [] => backend
  | count, backend, cmd :: later =>
      dispatchAll clock (count + 1)
        (backend.dispatch (clock count) cmd).2 later

section Replaying

variable {reserve : Reserve} {clock : Nat → TimePoint}

/-- The last command is dispatched where the others have led. -/
theorem dispatchAll_concat
    (clock : Nat → TimePoint)
    (count : Nat)
    (backend : Backend)
    (commands : List Command)
    (cmd : Command) :
    dispatchAll clock count backend (commands ++ [cmd]) =
      ((dispatchAll clock count backend commands).dispatch
        (clock (count + commands.length)) cmd).2 := by
  induction commands generalizing count backend with
  | nil =>
      rfl
  | cons first later inductionHypothesis =>
      rw [List.cons_append, dispatchAll, inductionHypothesis,
        List.length_cons, Nat.add_right_comm, Nat.add_assoc]
      rfl

/-- The consumer of `replay` never leaves the loop. -/
theorem consumeItems_replayValue
    (clock : Nat → TimePoint)
    (loop : ReplayLoop)
    (values : List RespValue) :
    consumeItems (replayValue clock) loop values =
      .proceed
        { backend :=
            dispatchAll clock loop.count loop.backend
              (values.filterMap parseCommand)
          dispatched :=
            loop.dispatched ++ values.filterMap parseCommand
          count :=
            loop.count + (values.filterMap parseCommand).length } := by
  induction values generalizing loop with
  | nil =>
      simp [consumeItems, dispatchAll]
  | cons value values inductionHypothesis =>
      cases parsed : parseCommand value with
      | none =>
          simp [consumeItems, replayValue, parsed, inductionHypothesis]
      | some cmd =>
          simp [consumeItems, replayValue, parsed, inductionHypothesis,
            dispatchAll, Nat.add_assoc, Nat.add_comm 1]

/-- What `replay` does on any file, in terms of the values in it. -/
theorem replay_eq
    (aof : AofPersistence)
    (backend : Backend)
    {drained : Drained UInt8 RespValue CppException}
    (values : drain (RespParser.decode reserve) aof.file = drained) :
    aof.replay reserve clock backend =
      let commands := drained.items.filterMap parseCommand
      let torn := drained.fault.isSome || decide (drained.rest ≠ [])
      let validBytes := aof.file.length - drained.rest.length
      { backend := dispatchAll clock 0 backend commands
        dispatched := commands
        count := commands.length
        parseError := drained.fault.isSome
        truncatedTo := if torn then some validBytes else none
        aof := if torn then ⟨aof.file.take validBytes⟩ else aof } := by
  subst values
  unfold replay
  split
  · rename_i empty
    have nothing : aof.file = [] := List.isEmpty_iff.mp empty
    rw [nothing, drain_more (RespParser.decode_nil reserve)]
    rfl
  · have consumed :=
      consumeAll_of_proceed (RespParser.incremental_decode reserve)
        (consumeItems_replayValue clock ⟨backend, [], 0⟩
          (drain (RespParser.decode reserve) aof.file).items)
    rw [RespParser.feedEach_eq_consumeAll]
    change consumeAll (RespParser.decode reserve) (replayValue clock)
      ⟨backend, [], 0⟩ (RespParser.empty.buf ++ aof.file) = _ at consumed
    simp only [consumed, List.nil_append, Nat.zero_add,
      List.length_pos_iff]
    cases (drain (RespParser.decode reserve) aof.file).fault <;> rfl

/-- Replay leaves the state that its commands lead to. -/
theorem backend_replay
    (aof : AofPersistence)
    (backend : Backend) :
    let replayed := aof.replay reserve clock backend
    replayed.backend = dispatchAll clock 0 backend replayed.dispatched := by
  rw [replay_eq aof backend rfl]

end Replaying

section Logging

/--
A command as `parse_command` produces it, in storage a process can hold: the
name is in upper case, and the logged array fits.
-/
structure Loggable (reserve : Reserve) (cmd : Command) : Prop where
  capital : upper cmd.name = cmd.name
  storable : cmd.toResp.Storable reserve

/-- The bytes of logged commands. -/
def wire (commands : List Command) : Bytes :=
  (commands.map fun cmd => cmd.toResp.serialize).flatten

@[simp] theorem wire_nil :
    wire [] = [] :=
  rfl

@[simp] theorem wire_cons
    (cmd : Command)
    (later : List Command) :
    wire (cmd :: later) = cmd.toResp.serialize ++ wire later :=
  rfl

@[simp] theorem wire_append
    (first second : List Command) :
    wire (first ++ second) = wire first ++ wire second := by
  simp [wire]

/-- The first commands take the first bytes. -/
theorem take_wire
    (commands : List Command)
    (count : Nat) :
    (wire commands).take (wire (commands.take count)).length =
      wire (commands.take count) := by
  have parts := wire_append (commands.take count) (commands.drop count)
  rw [List.take_append_drop] at parts
  rw [parts, List.take_left]

variable {reserve : Reserve}

/-- Commands parsed from a value that the parser returned are loggable. -/
theorem loggable_of_parseCommand
    {value : RespValue}
    {cmd : Command}
    (storable : value.Storable reserve)
    (parsed : parseCommand value = some cmd) :
    Loggable reserve cmd := by
  refine ⟨upper_name_of_parseCommand parsed, ?_⟩
  obtain ⟨name, rfl, capital⟩ := parseCommand_eq_some_iff.mp parsed
  obtain ⟨sizes, nameFits, argsFit⟩ := storable
  refine ⟨by simpa [RespValue.SizeFits] using sizes, ?_, argsFit⟩
  change cmd.name.length < 2 ^ 63
  rw [capital, upper, List.length_map]
  exact nameFits

/-- Commands of ordinary size are loggable. -/
theorem loggable_of_lengths
    {cmd : Command}
    (capital : upper cmd.name = cmd.name)
    (lengths :
      cmd.args.length + 1 < 2 ^ 63 ∧
        ∀ text ∈ cmd.name :: cmd.args, text.length < 2 ^ 63)
    (storage : reserve (cmd.args.length + 1) = none) :
    Loggable reserve cmd := by
  refine ⟨capital, ⟨by simpa using lengths.1, by simpa using storage⟩,
    RespValue.everywhereAll_iff.mpr ?_⟩
  rw [List.forall_mem_map]
  exact lengths.2

/-- Logging a loggable command appends its bytes. -/
theorem Loggable.log_eq_ok
    {cmd : Command}
    (loggable : Loggable reserve cmd)
    (aof : AofPersistence) :
    aof.log reserve cmd = .ok ⟨aof.file ++ cmd.toResp.serialize⟩ := by
  have storage : reserve (1 + cmd.args.length) = none := by
    rw [Nat.add_comm]
    simpa using loggable.storable.1.2
  simp only [log, storage]

/-- Logging loggable commands does not throw and appends their bytes. -/
theorem logAll_eq_ok
    {commands : List Command}
    (loggable : ∀ cmd ∈ commands, Loggable reserve cmd)
    (aof : AofPersistence) :
    logAll reserve aof commands = .ok ⟨aof.file ++ wire commands⟩ := by
  induction commands generalizing aof with
  | nil =>
      simp [logAll]
  | cons cmd later inductionHypothesis =>
      have first := (loggable cmd List.mem_cons_self).log_eq_ok aof
      have rest := inductionHypothesis fun other member =>
        loggable other (List.mem_cons_of_mem cmd member)
      simp only [logAll, first]
      change logAll reserve ⟨aof.file ++ cmd.toResp.serialize⟩ later = _
      rw [rest]
      simp

/-- A logged command is decoded as the value that was written. -/
theorem decode_toResp_append
    {cmd : Command}
    (loggable : Loggable reserve cmd)
    (later : Bytes) :
    RespParser.decode reserve (cmd.toResp.serialize ++ later) =
      .item cmd.toResp later :=
  RespParser.decode_frame_append
    (RespParser.frame_serialize RespParser.canonical_parserDialect
      RespValue.lineSafe_bulkArray loggable.storable)
    later

/-- The drain of a log is its commands, in front of what follows. -/
theorem drain_wire_append
    {commands : List Command}
    (loggable : ∀ cmd ∈ commands, Loggable reserve cmd)
    (tail : Bytes) :
    drain (RespParser.decode reserve) (wire commands ++ tail) =
      (drain (RespParser.decode reserve) tail).prepend
        (commands.map Command.toResp) := by
  refine drain_frames_append (RespParser.incremental_decode reserve)
    ?_ tail
  rw [List.forall₂_map_left_iff, List.forall₂_map_right_iff,
    List.forall₂_same]
  intro cmd member
  have decoded := decode_toResp_append (loggable cmd member) []
  rwa [List.append_nil] at decoded

/-- The commands of a log are read back as they were written. -/
theorem filterMap_parseCommand_toResp
    {commands : List Command}
    (loggable : ∀ cmd ∈ commands, Loggable reserve cmd) :
    (commands.map Command.toResp).filterMap parseCommand =
      commands := by
  induction commands with
  | nil =>
      rfl
  | cons cmd later inductionHypothesis =>
      have head :=
        parseCommand_toResp (loggable cmd List.mem_cons_self).capital
      have rest := inductionHypothesis fun other member =>
        loggable other (List.mem_cons_of_mem cmd member)
      rw [List.map_cons, List.filterMap_cons_some head, rest]

/-- Replay of a log with an unfinished frame behind it. -/
theorem replay_wire_append
    {commands : List Command}
    {tail : Bytes}
    (loggable : ∀ cmd ∈ commands, Loggable reserve cmd)
    (waiting : RespParser.decode reserve tail = .more)
    (clock : Nat → TimePoint)
    (backend : Backend) :
    (⟨wire commands ++ tail⟩ : AofPersistence).replay
        reserve clock backend =
      { backend := dispatchAll clock 0 backend commands
        dispatched := commands
        count := commands.length
        parseError := false
        truncatedTo :=
          if tail = [] then none else some (wire commands).length
        aof := ⟨wire commands⟩ } := by
  have drained := drain_wire_append loggable tail
  rw [drain_more waiting] at drained
  rw [replay_eq _ backend drained]
  simp only [Drained.prepend, List.append_nil,
    filterMap_parseCommand_toResp loggable]
  by_cases finished : tail = []
  · simp [finished]
  · simp [finished]

/-- Replay of a whole log dispatches its commands. -/
theorem replay_wire
    {commands : List Command}
    (loggable : ∀ cmd ∈ commands, Loggable reserve cmd)
    (clock : Nat → TimePoint)
    (backend : Backend) :
    (⟨wire commands⟩ : AofPersistence).replay reserve clock backend =
      { backend := dispatchAll clock 0 backend commands
        dispatched := commands
        count := commands.length
        parseError := false
        truncatedTo := none
        aof := ⟨wire commands⟩ } := by
  have replayed :=
    replay_wire_append loggable (RespParser.decode_nil reserve) clock
      backend
  rwa [List.append_nil, if_pos rfl] at replayed

end Logging

section Recovery

variable {reserve : Reserve}

/--
A log cut after `n` bytes: some whole commands and a part of the next one that
is not all of it.
-/
theorem exists_cut
    (commands : List Command)
    {n : Nat}
    (inside : n ≤ (wire commands).length) :
    ∃ kept torn,
      kept ≤ commands.length ∧
        (∀ i, i < commands.length →
          (i < kept ↔ (wire (commands.take (i + 1))).length ≤ n)) ∧
        (wire commands).take n = wire (commands.take kept) ++ torn ∧
        (torn ≠ [] →
          ∃ cmd ∈ commands, ∃ missing,
            cmd.toResp.serialize = torn ++ missing ∧ missing ≠ []) := by
  induction commands generalizing n with
  | nil =>
      exact ⟨0, [], by simp, by simp, by simp, by simp⟩
  | cons cmd later inductionHypothesis =>
      rw [wire_cons, List.length_append] at inside
      by_cases whole : cmd.toResp.serialize.length ≤ n
      · obtain ⟨kept, torn, small, counted, shape, cut⟩ :=
          inductionHypothesis
            (by omega : n - cmd.toResp.serialize.length ≤ _)
        refine ⟨kept + 1, torn, by simpa using small, ?_, ?_, ?_⟩
        · intro i bound
          cases i with
          | zero =>
              simpa using whole
          | succ i =>
              have step := counted i (by simpa using bound)
              rw [List.take_succ_cons, wire_cons, List.length_append]
              omega
        · rw [wire_cons, List.take_append, shape,
            List.take_of_length_le whole]
          simp
        · intro some
          obtain ⟨other, member, missing⟩ := cut some
          exact ⟨other, List.mem_cons_of_mem cmd member, missing⟩
      · refine ⟨0, cmd.toResp.serialize.take n, by simp, ?_, ?_, ?_⟩
        · intro i bound
          rw [List.take_succ_cons, wire_cons, List.length_append]
          omega
        · rw [wire_cons, List.take_append_of_le_length (by omega)]
          simp
        · intro _
          refine ⟨cmd, List.mem_cons_self,
            cmd.toResp.serialize.drop n, by simp, ?_⟩
          intro empty
          have lengths := congrArg List.length empty
          rw [List.length_drop] at lengths
          simp only [List.length_nil] at lengths
          omega

/-- Part of a logged command is a request for more bytes. -/
theorem decode_torn
    {commands : List Command}
    {torn : Bytes}
    (loggable : ∀ cmd ∈ commands, Loggable reserve cmd)
    (cut :
      torn ≠ [] →
        ∃ cmd ∈ commands, ∃ missing,
          cmd.toResp.serialize = torn ++ missing ∧ missing ≠ []) :
    RespParser.decode reserve torn = .more := by
  by_cases empty : torn = []
  · rw [empty]
    exact RespParser.decode_nil reserve
  · obtain ⟨cmd, member, missing, shape, some⟩ := cut empty
    have decoded := decode_toResp_append (loggable cmd member) []
    rw [List.append_nil, shape] at decoded
    exact decode_eq_more_of_cut (RespParser.incremental_decode reserve)
      decoded some

/--
Replay of a log cut after `n` bytes dispatches the commands whose frames end
within those bytes, so that the store is as they leave it, without a parse
error, and truncates the file behind the last of them.  Commands logged
afterwards are dispatched behind them in the next replay.
-/
theorem replay_cut_log
    (reserve : Reserve)
    (clock laterClock : Nat → TimePoint)
    (backend fresh : Backend)
    (first second : List Command)
    (firstLoggable : ∀ cmd ∈ first, Loggable reserve cmd)
    (secondLoggable : ∀ cmd ∈ second, Loggable reserve cmd)
    (aof : AofPersistence)
    (logged : logAll reserve ⟨[]⟩ first = .ok aof)
    (n : Nat)
    (inside : n ≤ aof.file.length) :
    ∃ kept ≤ first.length,
      (∀ i, i < first.length →
        (i < kept ↔ (wire (first.take (i + 1))).length ≤ n)) ∧
      let recovered :=
        (⟨aof.file.take n⟩ : AofPersistence).replay
          reserve clock backend
      let boundary := (wire (first.take kept)).length
      recovered.dispatched = first.take kept ∧
        recovered.backend = dispatchAll clock 0 backend (first.take kept) ∧
        recovered.count = kept ∧
        recovered.parseError = false ∧
        recovered.truncatedTo =
          (if n = boundary then none else some boundary) ∧
        recovered.aof = ⟨aof.file.take boundary⟩ ∧
        ∃ extended,
          logAll reserve recovered.aof second = .ok extended ∧
            (extended.replay reserve laterClock fresh).dispatched =
              first.take kept ++ second ∧
            (extended.replay reserve laterClock fresh).backend =
              dispatchAll laterClock 0 fresh (first.take kept ++ second) := by
  rw [logAll_eq_ok firstLoggable] at logged
  cases logged
  rw [List.nil_append] at inside ⊢
  obtain ⟨kept, torn, small, counted, shape, cut⟩ :=
    exists_cut first inside
  have keptLoggable :
      ∀ cmd ∈ first.take kept, Loggable reserve cmd := fun cmd member =>
    firstLoggable cmd (List.mem_of_mem_take member)
  have recovered :=
    replay_wire_append keptLoggable (decode_torn firstLoggable cut)
      clock backend
  have lengths := congrArg List.length shape
  rw [List.length_take_of_le inside, List.length_append] at lengths
  have allLoggable :
      ∀ cmd ∈ first.take kept ++ second, Loggable reserve cmd :=
    List.forall_mem_append.mpr ⟨keptLoggable, secondLoggable⟩
  have replayedAgain := replay_wire allLoggable laterClock fresh
  rw [wire_append] at replayedAgain
  refine ⟨kept, small, counted, ?_⟩
  simp only [shape, recovered, take_wire, List.length_take_of_le small,
    true_and]
  refine ⟨?_, _, logAll_eq_ok secondLoggable _, ?_⟩
  · have finished :
        torn = [] ↔ n = (wire (first.take kept)).length := by
      rw [← List.length_eq_zero_iff]
      omega
    simp only [finished]
  · rw [replayedAgain]
    exact ⟨rfl, rfl⟩

/-- A log of two commands that is cut inside the last argument. -/
theorem replay_cut_log_inside_argument :
    let set (key : String) : Command :=
      ⟨ascii "SET", [ascii key, ascii "v"]⟩
    let recovered :=
      (⟨(wire [set "a", set "b"]).take 51⟩ : AofPersistence).replay
        (fun _ => none) (fun _ => 0) Backend.initial
    recovered.dispatched = [set "a"] ∧
      recovered.backend =
        dispatchAll (fun _ => 0) 0 Backend.initial [set "a"] := by
  intro set recovered
  have loggable :
      ∀ cmd ∈ [set "a", set "b"], Loggable (fun _ => none) cmd := by
    intro cmd member
    rcases List.mem_pair.mp member with rfl | rfl
    · exact loggable_of_lengths (by decide) (by decide) rfl
    · exact loggable_of_lengths (by decide) (by decide) rfl
  obtain ⟨kept, -, counted, dispatched, backend, -⟩ :=
    replay_cut_log (fun _ => none) (fun _ => 0) (fun _ => 0)
      Backend.initial Backend.initial [set "a", set "b"] [] loggable
      (by simp) _ (logAll_eq_ok loggable ⟨[]⟩) 51 (by decide)
  have first : 0 < kept := (counted 0 (by decide)).mpr (by decide)
  have second : ¬1 < kept := mt (counted 1 (by decide)).mp (by decide)
  obtain rfl : kept = 1 := by omega
  exact ⟨dispatched, backend⟩

end Recovery

end AofPersistence

end Vortek
