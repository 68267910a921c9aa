import Vortek.AofRecovery
import Vortek.CrashRecovery

namespace Vortek

open EmittingMachine IncrementalDecoder

/-!
# Recoveries that fail

`replay` ends with `truncate_to` or `reopen_append_stream`.  Both close the
stream of the append-only file and open it again, and both may fail.  They log
an error and return false, `replay` does not look at what they return, and
`main` asks `is_open` before the replay only.  So the server runs with a stream
that is closed, and `log` writes nothing to it.

A process is accompanied by the stream here.  The contents that the process
itself records are those of a stream that is open.
-/

/-- Whether the file can be resized, and whether it can be opened again. -/
structure FileSystem where
  resizes : Bool
  reopens : Bool

/-- The stream `file_`, with what its file holds. -/
structure LogStream where
  disk : Bytes
  isOpen : Bool

namespace LogStream

/-- `file_.write(…)` and `file_.flush()`; nothing goes to a closed stream. -/
def write (stream : LogStream) (data : Bytes) : LogStream :=
  if stream.isOpen then
    { stream with disk := stream.disk ++ data }
  else
    stream

/-- The file behind `log`, one command after the other. -/
def logEach (stream : LogStream) (commands : List Command) : LogStream :=
  commands.foldl (fun stream cmd => stream.write cmd.toResp.serialize) stream

/-- `reopen_append_stream`, which may leave the stream closed. -/
def reopenAppendStream
    (system : FileSystem)
    (stream : LogStream) :
    LogStream :=
  { stream with isOpen := system.reopens }

/-- `truncate_to`, which resizes the file and opens it again. -/
def truncateTo
    (system : FileSystem)
    (stream : LogStream)
    (bytes : Nat) :
    LogStream :=
  if system.resizes then
    ⟨stream.disk.take bytes, system.reopens⟩
  else
    -- The stream is closed when `resize_file` throws.
    { stream with isOpen := false }

/-- The end of `replay`, which returns early if the file is empty. -/
def recover
    (system : FileSystem)
    (replayed : AofPersistence.Replayed)
    (stream : LogStream) :
    LogStream :=
  if stream.disk.isEmpty then
    stream
  else
    match replayed.truncatedTo with
    | some bytes => stream.truncateTo system bytes
    | none => stream.reopenAppendStream system

theorem logEach_append
    (stream : LogStream)
    (commands more : List Command) :
    stream.logEach (commands ++ more) =
      (stream.logEach commands).logEach more :=
  List.foldl_append

theorem logEach_of_closed
    {stream : LogStream}
    (closed : stream.isOpen = false)
    (commands : List Command) :
    stream.logEach commands = stream := by
  induction commands with
  | nil =>
      rfl
  | cons cmd later inductionHypothesis =>
      have unchanged : stream.write cmd.toResp.serialize = stream := by
        simp [write, closed]
      rw [logEach, List.foldl_cons, unchanged]
      exact inductionHypothesis

theorem logEach_of_open
    {stream : LogStream}
    (opened : stream.isOpen = true)
    (commands : List Command) :
    stream.logEach commands =
      ⟨stream.disk ++ AofPersistence.wire commands, true⟩ := by
  induction commands generalizing stream with
  | nil =>
      simp [logEach, ← opened]
  | cons cmd later inductionHypothesis =>
      have written :
          stream.write cmd.toResp.serialize =
            ⟨stream.disk ++ cmd.toResp.serialize, true⟩ := by
        simp [write, opened]
      rw [logEach, List.foldl_cons, written, AofPersistence.wire_cons,
        ← List.append_assoc]
      exact inductionHypothesis rfl

end LogStream

namespace AofPersistence

variable {reserve : Reserve} {clock laterClock : Nat → TimePoint}
variable {backend fresh : Backend}

/-- What a file holds does not depend on where it is replayed. -/
theorem replay_elsewhere
    (aof : AofPersistence) :
    let first := aof.replay reserve clock backend
    let second := aof.replay reserve laterClock fresh
    first.dispatched = second.dispatched ∧
      first.truncatedTo = second.truncatedTo := by
  rw [replay_eq aof backend rfl, replay_eq aof fresh rfl]
  exact ⟨rfl, rfl⟩

/-- Commands that are logged behind what a replay has kept. -/
theorem dispatched_kept_append
    {commands : List Command}
    (loggable : ∀ cmd ∈ commands, Loggable reserve cmd)
    (aof : AofPersistence) :
    let first := aof.replay reserve clock backend
    ((AofPersistence.mk (first.aof.file ++ wire commands)).replay
        reserve laterClock fresh).dispatched =
      first.dispatched ++ commands := by
  intro first
  obtain ⟨frames, values, rest, recovered, kept, dispatched, -⟩ :=
    exists_replayed_frames clock backend aof
  have incremental := RespParser.incremental_decode reserve
  have drained :
      drain (RespParser.decode reserve) (first.aof.file ++ wire commands) =
        (drain (RespParser.decode reserve) []).prepend
          (values ++ commands.map Command.toResp) := by
    have logged := drain_wire_append loggable []
    rw [List.append_nil] at logged
    have file : first.aof.file = frames.flatten :=
      congrArg AofPersistence.file kept
    rw [file, drain_frames_append incremental recovered.framed, logged,
      Drained.prepend_prepend]
  have nothing :
      drain (RespParser.decode reserve) [] = ⟨[], none, []⟩ :=
    drain_more (RespParser.decode_nil reserve)
  rw [replay_eq _ fresh drained, dispatched, nothing]
  simp only [Drained.prepend_items, List.append_nil, List.filterMap_append,
    filterMap_parseCommand_toResp loggable]

/-- A file that is not truncated is kept as it is. -/
theorem kept_of_whole
    {aof : AofPersistence}
    (whole : (aof.replay reserve clock backend).truncatedTo = none) :
    (aof.replay reserve clock backend).aof = aof := by
  rw [replay_eq aof backend rfl] at whole ⊢
  simp only [ite_eq_right_iff, reduceCtorEq, imp_false] at whole
  exact if_neg whole

theorem kept_of_cut
    {aof : AofPersistence}
    {bytes : Nat}
    (cut : (aof.replay reserve clock backend).truncatedTo = some bytes) :
    (aof.replay reserve clock backend).aof.file = aof.file.take bytes := by
  rw [replay_eq aof backend rfl] at cut ⊢
  dsimp only at cut ⊢
  split at cut
  · cases cut
    rw [if_pos ‹_›]
  · cases cut

end AofPersistence

namespace LogStream

variable {reserve : Reserve} {clock : Nat → TimePoint} {backend : Backend}

/-- A stream that is open holds what was kept; a closed one may hold more. -/
theorem recover_disk
    (system : FileSystem)
    (disk : Bytes) :
    let first := (AofPersistence.mk disk).replay reserve clock backend
    let stream := LogStream.recover system first ⟨disk, true⟩
    stream.disk = first.aof.file ∨
      stream.isOpen = false ∧ stream.disk = disk := by
  intro first stream
  have recovered : stream = LogStream.recover system first ⟨disk, true⟩ :=
    rfl
  unfold recover at recovered
  cases cut : first.truncatedTo with
  | none =>
      left
      rw [AofPersistence.kept_of_whole cut, recovered, cut]
      dsimp only
      split <;> rfl
  | some bytes =>
      rw [AofPersistence.kept_of_cut cut, recovered, cut]
      dsimp only
      split
      · rename_i empty
        left
        simp [List.isEmpty_iff.mp empty]
      · unfold truncateTo
        cases system.resizes with
        | false =>
            exact .inr ⟨rfl, rfl⟩
        | true =>
            exact .inl rfl

/-- When the stream is open behind a replay. -/
theorem isOpen_recover
    (system : FileSystem)
    (disk : Bytes) :
    let first := (AofPersistence.mk disk).replay reserve clock backend
    (LogStream.recover system first ⟨disk, true⟩).isOpen = true ↔
      disk = [] ∨
        system.reopens = true ∧
          (system.resizes = true ∨ first.truncatedTo = none) := by
  intro first
  unfold recover
  dsimp only
  split
  · rename_i empty
    simp [List.isEmpty_iff.mp empty]
  · rename_i filled
    have content : disk ≠ [] := by
      simpa using filled
    split
    · rename_i bytes cut
      unfold truncateTo
      cases resizes : system.resizes <;> simp [content, cut]
    · rename_i whole
      simp [reopenAppendStream, content, whole]

end LogStream

/-- A process with the stream that it logs to. -/
structure LoggingProcess where
  process : Process
  stream : LogStream

namespace LoggingProcess

variable (reserve : Reserve)

/-- The commands that are logged go to the stream, if there is one. -/
def machine : Machine LoggingProcess ProcessEvent Dispatch where
  step := fun logging event =>
    { process := logging.process.step reserve event
      stream :=
        if logging.process.loop.server.aof.isSome then
          logging.stream.logEach
            (loggedCommands (logging.process.executes reserve event))
        else
          logging.stream }
  emit := fun logging event => logging.process.executes reserve event

/-- What `main` starts over a file that it has opened. -/
def start
    (cfg : Config)
    (around : Surroundings)
    (system : FileSystem)
    (disk : Bytes) :
    LoggingProcess where
  process :=
    Process.launch reserve { around with openAof := fun _ => some disk } cfg
  stream :=
    LogStream.recover system
      ((AofPersistence.mk disk).replay reserve around.replayClock
        (cfg.freshBackend around.startTime))
      ⟨disk, true⟩

variable {reserve}

/-- The process runs as always, and what it logs goes to the stream. -/
theorem run_machine
    {logging : LoggingProcess}
    (orderly : logging.process.Orderly)
    (logs : logging.process.loop.server.aof.isSome = true)
    (events : List ProcessEvent) :
    (machine reserve).run logging events =
      ⟨logging.process.after reserve events,
        logging.stream.logEach
          (loggedCommands (logging.process.executed reserve events))⟩ := by
  induction events generalizing logging with
  | nil =>
      rfl
  | cons event later inductionHypothesis =>
      have next :
          (machine reserve).step logging event =
            ⟨logging.process.step reserve event,
              logging.stream.logEach
                (loggedCommands
                  (logging.process.executes reserve event))⟩ := by
        simp [machine, logs]
      have stillLogs :
          (logging.process.step reserve event).loop.server.aof.isSome =
            true := by
        rw [(orderly.step_executes event).aof, Option.isSome_map, logs]
      have split :
          logging.process.executed reserve (event :: later) =
            logging.process.executes reserve event ++
              (logging.process.step reserve event).executed reserve later :=
        rfl
      rw [split, loggedCommands_append, LogStream.logEach_append]
      refine Eq.trans (congrArg ((machine reserve).run · later) next) ?_
      exact inductionHypothesis (orderly.step reserve event) stillLogs

/-- Whatever a process executes can be logged. -/
theorem loggable_executed
    (cfg : Config)
    (around : Surroundings)
    (events : List ProcessEvent) :
    ∀ cmd ∈ loggedCommands
        ((Process.launch reserve around cfg).executed reserve events),
      AofPersistence.Loggable reserve cmd := by
  intro cmd logged
  obtain ⟨dispatch, member, rfl⟩ :=
    List.mem_map.mp (List.mem_of_mem_filter logged)
  exact ((Process.orderly_launch around cfg).after_executes events).loggable
    dispatch member

/-- A start leaves the store that the commands of its file lead to. -/
theorem store_start
    {cfg : Config}
    (enabled : cfg.aofEnabled = true)
    (around : Surroundings)
    (system : FileSystem)
    (disk : Bytes) :
    let fresh := cfg.freshBackend around.startTime
    let replayed :=
      (AofPersistence.mk disk).replay reserve around.replayClock fresh
    (start reserve cfg around system disk).process.loop.server.backend.store =
      (AofPersistence.dispatchAll around.replayClock 0 fresh
        replayed.dispatched).store := by
  intro fresh replayed
  have prepared :
      cfg.prepare reserve { around with openAof := fun _ => some disk } =
        ⟨replayed.backend, some replayed.aof⟩ := by
    simp only [Config.prepare, enabled, if_true]
    rfl
  have reached :
      replayed.backend =
        AofPersistence.dispatchAll around.replayClock 0 fresh
          replayed.dispatched :=
    AofPersistence.backend_replay _ _
  rw [← reached]
  exact congrArg (fun server => server.backend.store) prepared

/-- The stream behind a run of what `main` starts. -/
theorem stream_run_start
    {cfg : Config}
    (enabled : cfg.aofEnabled = true)
    (around : Surroundings)
    (system : FileSystem)
    (disk : Bytes)
    (events : List ProcessEvent) :
    let started := start reserve cfg around system disk
    ((machine reserve).run started events).stream =
      started.stream.logEach
        (loggedCommands (started.process.executed reserve events)) := by
  intro started
  have logs : started.process.loop.server.aof.isSome = true := by
    have known :=
      Process.isSome_aof_launch reserve
        { around with openAof := fun _ => some disk } cfg
    rw [enabled] at known
    exact known
  exact congrArg stream
    (run_machine (Process.orderly_launch _ cfg) logs events)

/-- The commands of the file that a run leaves. -/
theorem dispatched_final
    {cfg : Config}
    (enabled : cfg.aofEnabled = true)
    (around : Surroundings)
    (system : FileSystem)
    (disk : Bytes)
    (events : List ProcessEvent)
    (clock : Nat → TimePoint)
    (fresh : Backend) :
    let started := start reserve cfg around system disk
    let final := (machine reserve).run started events
    let replay := fun contents =>
      (AofPersistence.mk contents).replay reserve clock fresh
    (replay final.stream.disk).dispatched =
      (replay disk).dispatched ++
        (if started.stream.isOpen then
          loggedCommands (started.process.executed reserve events)
        else
          []) := by
  intro started final replay
  let first :=
    (AofPersistence.mk disk).replay reserve around.replayClock
      (cfg.freshBackend around.startTime)
  have same : first.dispatched = (replay disk).dispatched :=
    (AofPersistence.replay_elsewhere _).1
  have loggable :
      ∀ cmd ∈ loggedCommands (started.process.executed reserve events),
        AofPersistence.Loggable reserve cmd :=
    loggable_executed cfg _ events
  have ran :
      final.stream =
        started.stream.logEach
          (loggedCommands (started.process.executed reserve events)) :=
    stream_run_start enabled around system disk events
  have recovered :
      started.stream.disk = first.aof.file ∨
        started.stream.isOpen = false ∧ started.stream.disk = disk :=
    LogStream.recover_disk system disk
  rw [ran, ← same]
  cases isOpen : started.stream.isOpen with
  | true =>
      rw [isOpen] at recovered
      have kept := recovered.resolve_right fun closed => by cases closed.1
      rw [LogStream.logEach_of_open isOpen, if_pos rfl, kept]
      exact AofPersistence.dispatched_kept_append loggable _
  | false =>
      rw [LogStream.logEach_of_closed isOpen, if_neg Bool.false_ne_true]
      rcases recovered with kept | ⟨-, whole⟩
      · have again :
            (replay (first.aof.file ++ AofPersistence.wire [])).dispatched =
              first.dispatched ++ [] :=
          AofPersistence.dispatched_kept_append (List.forall_mem_nil _) _
        rwa [AofPersistence.wire_nil, List.append_nil, ← kept] at again
      · rw [whole, List.append_nil]
        exact same.symm

/--
Behind any start over any file, and any run, the next start replays what this
one has replayed, followed by the write commands that were executed in between
if the stream could be opened again, and by nothing otherwise; its store is
what these commands lead to.  The stream is open unless the file has contents
and cannot be opened again, or has to be truncated and cannot be resized.
-/
theorem restart_replays_logged
    (reserve : Reserve)
    (cfg : Config)
    (enabled : cfg.aofEnabled = true)
    (around : Surroundings)
    (system : FileSystem)
    (disk : Bytes)
    (events : List ProcessEvent)
    (clock : Nat → TimePoint)
    (fresh : Backend)
    (later : Surroundings)
    (laterSystem : FileSystem) :
    let started := start reserve cfg around system disk
    let final := (machine reserve).run started events
    let replay := fun contents =>
      (AofPersistence.mk contents).replay reserve clock fresh
    let commands :=
      (replay disk).dispatched ++
        (if started.stream.isOpen then
          loggedCommands (started.process.executed reserve events)
        else
          [])
    let next := start reserve cfg later laterSystem final.stream.disk
    (replay final.stream.disk).dispatched = commands ∧
      (replay final.stream.disk).backend =
        AofPersistence.dispatchAll clock 0 fresh commands ∧
      next.process.loop.server.backend.store =
        (AofPersistence.dispatchAll later.replayClock 0
          (cfg.freshBackend later.startTime) commands).store ∧
      (started.stream.isOpen = true ↔
        disk = [] ∨
          system.reopens = true ∧
            (system.resizes = true ∨ (replay disk).truncatedTo = none)) := by
  intro started final replay commands next
  have dispatched : (replay final.stream.disk).dispatched = commands :=
    dispatched_final enabled around system disk events clock fresh
  refine ⟨dispatched, ?_, ?_, ?_⟩
  · rw [← dispatched]
    exact AofPersistence.backend_replay _ _
  · have elsewhere :
        ((AofPersistence.mk final.stream.disk).replay reserve
            later.replayClock (cfg.freshBackend later.startTime)).dispatched =
          (replay final.stream.disk).dispatched :=
      (AofPersistence.replay_elsewhere _).1
    rw [← dispatched, ← elsewhere]
    exact store_start enabled later laterSystem final.stream.disk
  · let first :=
      (AofPersistence.mk disk).replay reserve around.replayClock
        (cfg.freshBackend around.startTime)
    have cut : first.truncatedTo = (replay disk).truncatedTo :=
      (AofPersistence.replay_elsewhere _).2
    rw [← cut]
    exact LogStream.isOpen_recover system disk

/-- A torn file that cannot be resized: the write of a client is lost. -/
theorem restart_replays_logged_torn :
    let set (key : String) : Command :=
      ⟨ascii "SET", [ascii key, ascii "v"]⟩
    let around : Surroundings :=
      ⟨fun _ => .error [], fun _ => none, 0, fun _ => 0, fun _ => true⟩
    let disk := AofPersistence.wire [set "a"] ++ ascii "*3"
    let events : List ProcessEvent :=
      [.acceptDone (.socket 7 true),
        .complete 7
          (.readDone (fun _ => 5) (AofPersistence.wire [set "b"]))]
    let started := start (fun _ => none) {} around ⟨false, true⟩ disk
    let final := (machine (fun _ => none)).run started events
    let replay := fun contents =>
      (AofPersistence.mk contents).replay (fun _ => none) (fun _ => 9)
        (Config.freshBackend {} 9)
    let next :=
      start (fun _ => none) {} around ⟨true, true⟩ final.stream.disk
    loggedCommands (started.process.executed (fun _ => none) events) =
        [set "b"] ∧
      (replay final.stream.disk).dispatched = [set "a"] ∧
      next.process.loop.server.backend.store =
        (AofPersistence.dispatchAll (fun _ => 0) 0
          (Config.freshBackend {} 0) [set "a"]).store := by
  intro set around disk events
  have restarted :=
    restart_replays_logged (fun _ => none) {} rfl around ⟨false, true⟩ disk
      events (fun _ => 9) (Config.freshBackend {} 9) around ⟨true, true⟩
  have executed :
      loggedCommands
          ((start (fun _ => none) {} around ⟨false, true⟩ disk).process.executed
            (fun _ => none) events) =
        [set "b"] := by
    decide +kernel
  have closed :
      (start (fun _ => none) {} around ⟨false, true⟩ disk).stream.isOpen =
        false := by
    decide +kernel
  have replayed :
      ((AofPersistence.mk disk).replay (fun _ => none) (fun _ => 9)
        (Config.freshBackend {} 9)).dispatched = [set "a"] := by
    decide +kernel
  dsimp only at restarted
  rw [closed, replayed] at restarted
  exact ⟨executed, restarted.1, restarted.2.2.1⟩

end LoggingProcess

end Vortek
