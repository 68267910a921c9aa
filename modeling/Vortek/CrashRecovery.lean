import Vortek.SequentialExecution

namespace Vortek

open EmittingMachine

/-!
# Crashes and restarts

A server that runs with the append-only file may be killed at any moment, and
the file may lose its last bytes.  The next process replays what is left.  Over
any number of such lives, a process starts with the store that the surviving
commands lead to, those whose frames were kept whole, as long as no executed
command attaches a deadline.  This store is one that the life before had at some
moment between two commands.
-/

namespace AofPersistence

/-- The commands whose frames lie within the first `n` bytes of the log. -/
def framesWithin : List Command → Nat → List Command
  | [], _ => []
  | cmd :: later, n =>
      if cmd.toResp.serialize.length ≤ n then
        cmd :: framesWithin later (n - cmd.toResp.serialize.length)
      else
        []

theorem framesWithin_initial
    (commands : List Command)
    (n : Nat) :
    framesWithin commands n <+: commands := by
  induction commands generalizing n with
  | nil =>
      exact List.prefix_rfl
  | cons cmd later inductionHypothesis =>
      rw [framesWithin]
      split
      · exact List.cons_prefix_cons.mpr ⟨rfl, inductionHypothesis _⟩
      · exact List.nil_prefix

/-- A log that is cut consists of whole frames and a part of the next one. -/
theorem framesWithin_cut
    (commands : List Command)
    (n : Nat) :
    ∃ torn,
      (wire commands).take n = wire (framesWithin commands n) ++ torn ∧
        (torn ≠ [] →
          ∃ cmd ∈ commands, ∃ missing,
            cmd.toResp.serialize = torn ++ missing ∧ missing ≠ []) := by
  induction commands generalizing n with
  | nil =>
      exact ⟨[], by simp [framesWithin], fun torn => absurd rfl torn⟩
  | cons cmd later inductionHypothesis =>
      rw [framesWithin, wire_cons]
      by_cases whole : cmd.toResp.serialize.length ≤ n
      · obtain ⟨torn, shape, cut⟩ :=
          inductionHypothesis (n - cmd.toResp.serialize.length)
        refine ⟨torn, ?_, fun some => ?_⟩
        · rw [if_pos whole, wire_cons, List.take_append,
            List.take_of_length_le whole, shape, List.append_assoc]
        · obtain ⟨one, member, rest⟩ := cut some
          exact ⟨one, List.mem_cons_of_mem cmd member, rest⟩
      · have short : n < cmd.toResp.serialize.length :=
          Nat.lt_of_not_le whole
        refine ⟨cmd.toResp.serialize.take n, ?_, fun _ =>
          ⟨cmd, List.mem_cons_self, cmd.toResp.serialize.drop n,
            (List.take_append_drop n _).symm, ?_⟩⟩
        · rw [if_neg whole, List.take_append_of_le_length (Nat.le_of_lt short)]
          rfl
        · intro nothing
          exact absurd (List.drop_eq_nil_iff.mp nothing)
            (Nat.not_le_of_lt short)

end AofPersistence

/-- The commands lead from an empty store to this one, at any time. -/
structure ReplaysTo (commands : List Command) (store : KvStore) : Prop where
  noDeadlines : store.NoDeadlines
  reaches :
    ∀ clock fresh,
      fresh.store = KvStore.empty →
      (AofPersistence.dispatchAll clock 0 fresh commands).store = store

section Replaying

variable {commands : List Command} {first last store : KvStore}
variable {dispatches : List Dispatch}

theorem replaysTo_nil :
    ReplaysTo [] KvStore.empty :=
  ⟨KvStore.noDeadlines_empty, fun _ _ fromEmpty => fromEmpty⟩

/-- Commands lead to one store only. -/
theorem ReplaysTo.unique
    (replays : ReplaysTo commands first)
    (again : ReplaysTo commands last) :
    first = last :=
  (replays.reaches (fun _ => 0) Backend.initial rfl).symm.trans
    (again.reaches (fun _ => 0) Backend.initial rfl)

/-- One more command is executed that attaches no deadline. -/
theorem ReplaysTo.dispatch
    {dispatch : Dispatch}
    (replays : ReplaysTo commands dispatch.backend.store)
    (noExpiry : dispatch.NoExpiry) :
    ReplaysTo (commands ++ loggedCommands [dispatch]) dispatch.left := by
  cases write : AofPersistence.isWriteCommand dispatch.cmd.name with
  | false =>
      have nothing : loggedCommands [dispatch] = [] := by
        simp [loggedCommands, write]
      rw [nothing, List.append_nil, Dispatch.left,
        Backend.dispatch_store_of_not_write write]
      exact replays
  | true =>
      have logged : loggedCommands [dispatch] = [dispatch.cmd] := by
        simp [loggedCommands, write]
      have again :
          ∀ (other : Backend) (later : TimePoint),
            other.store = dispatch.backend.store →
            (other.dispatch later dispatch.cmd).2.store = dispatch.left ∧
              dispatch.left.NoDeadlines :=
        fun other later same =>
          Backend.dispatch_of_noDeadlines write noExpiry
            replays.noDeadlines same
      rw [logged]
      refine ⟨(again _ dispatch.now rfl).2, fun clock fresh fromEmpty => ?_⟩
      rw [AofPersistence.dispatchAll_concat]
      exact (again _ _ (replays.reaches clock fresh fromEmpty)).1

/-- Replay of what was logged leads to the same store. -/
theorem ReplaysTo.sequential
    (replays : ReplaysTo commands first)
    (sequential : Sequential first dispatches last)
    (noExpiry : ∀ dispatch ∈ dispatches, dispatch.NoExpiry) :
    ReplaysTo (commands ++ loggedCommands dispatches) last := by
  induction dispatches generalizing commands first with
  | nil =>
      rw [KvStore.SweptTo.eq_of_noDeadlines sequential replays.noDeadlines]
      exact (List.append_nil commands).symm ▸ replays
  | cons dispatch later inductionHypothesis =>
      obtain ⟨swept, sequential⟩ := sequential
      obtain ⟨now, rest⟩ := List.forall_mem_cons.mp noExpiry
      have found := swept.eq_of_noDeadlines replays.noDeadlines
      rw [← found] at replays
      have continued :=
        inductionHypothesis (replays.dispatch now) sequential rest
      rwa [List.append_assoc, ← loggedCommands_append] at continued

/-- Whatever was logged first was logged by some moment. -/
theorem Sequential.exists_moment
    {early : List Command}
    (sequential : Sequential first dispatches last)
    (initial : early <+: loggedCommands dispatches) :
    ∃ before after middle,
      dispatches = before ++ after ∧
        loggedCommands before = early ∧
        Sequential first before middle := by
  induction dispatches generalizing first early with
  | nil =>
      exact ⟨[], [], first, rfl, (List.prefix_nil.mp initial).symm,
        .refl first⟩
  | cons dispatch later inductionHypothesis =>
      cases write : AofPersistence.isWriteCommand dispatch.cmd.name with
      | false =>
          have same :
              loggedCommands (dispatch :: later) = loggedCommands later := by
            simp [loggedCommands, write]
          rw [same] at initial
          obtain ⟨before, after, middle, rfl, logged, chain⟩ :=
            inductionHypothesis sequential.2 initial
          refine ⟨dispatch :: before, after, middle, rfl, ?_,
            sequential.1, chain⟩
          simpa [loggedCommands, write] using logged
      | true =>
          have one :
              loggedCommands (dispatch :: later) =
                dispatch.cmd :: loggedCommands later := by
            simp [loggedCommands, write]
          rw [one] at initial
          cases early with
          | nil =>
              exact ⟨[], _, first, rfl, rfl, .refl first⟩
          | cons cmd rest =>
              obtain ⟨rfl, shorter⟩ := List.cons_prefix_cons.mp initial
              obtain ⟨before, after, middle, rfl, logged, chain⟩ :=
                inductionHypothesis sequential.2 shorter
              refine ⟨dispatch :: before, after, middle, rfl, ?_,
                sequential.1, chain⟩
              simpa [loggedCommands, write] using logged

end Replaying

/-- A process from its start until it is killed. -/
structure Life where
  around : Surroundings
  events : List ProcessEvent
  kept : Nat

/-- What the append-only file of a process holds. -/
def Process.file (process : Process) : Bytes :=
  match process.loop.server.aof with
  | none => []
  | some aof => aof.file

namespace Life

variable (reserve : Reserve) (cfg : Config)

/-- The process that `main` starts over what is on disk. -/
def boot (disk : Bytes) (life : Life) : Process :=
  Process.launch reserve
    { life.around with openAof := fun _ => some disk } cfg

/-- The commands that are executed in a life. -/
def executed (disk : Bytes) (life : Life) : List Dispatch :=
  (life.boot reserve cfg disk).executed reserve life.events

/-- The process when it is killed. -/
def final (disk : Bytes) (life : Life) : Process :=
  (life.boot reserve cfg disk).after reserve life.events

end Life

/-- What is on disk, and the commands that are whole there. -/
structure Ledger where
  disk : Bytes
  survivors : List Command

namespace Ledger

/-- No file, and nothing to recover. -/
def empty : Ledger :=
  ⟨[], []⟩

variable (reserve : Reserve) (cfg : Config)

/-- A process lives, and some of the file is lost when it is killed. -/
def pass (ledger : Ledger) (life : Life) : Ledger where
  disk := (life.final reserve cfg ledger.disk).file.take life.kept
  survivors :=
    AofPersistence.framesWithin
      (ledger.survivors ++
        loggedCommands (life.executed reserve cfg ledger.disk))
      life.kept

/-- Processes that live one after the other over one file. -/
def machine : Machine Ledger Life Dispatch where
  step := pass reserve cfg
  emit := fun ledger life => life.executed reserve cfg ledger.disk

/-- The disk holds a log that was cut, and its commands can be replayed. -/
structure Sound (ledger : Ledger) : Prop where
  torn :
    ∃ commands n,
      (∀ cmd ∈ commands, AofPersistence.Loggable reserve cmd) ∧
        ledger.disk = (AofPersistence.wire commands).take n ∧
        ledger.survivors = AofPersistence.framesWithin commands n
  replays :
    ∀ early, early <+: ledger.survivors → ∃ store, ReplaysTo early store

variable {reserve cfg} {ledger : Ledger}

theorem sound_empty :
    empty.Sound reserve where
  torn :=
    ⟨[], 0, fun _ member => absurd member List.not_mem_nil, rfl, rfl⟩
  replays := fun _ initial =>
    ⟨KvStore.empty, List.prefix_nil.mp initial ▸ replaysTo_nil⟩

theorem Sound.loggable
    (sound : ledger.Sound reserve) :
    ∀ cmd ∈ ledger.survivors, AofPersistence.Loggable reserve cmd := by
  obtain ⟨commands, n, loggable, -, survivors⟩ := sound.torn
  intro cmd member
  rw [survivors] at member
  exact loggable cmd
    ((AofPersistence.framesWithin_initial commands n).subset member)

/-- A process starts with the survivors and nothing else. -/
theorem Sound.boot
    (sound : ledger.Sound reserve)
    (enabled : cfg.aofEnabled = true)
    (life : Life) :
    let process := life.boot reserve cfg ledger.disk
    process.loop.server.aof =
        some ⟨AofPersistence.wire ledger.survivors⟩ ∧
      ReplaysTo ledger.survivors process.loop.server.backend.store := by
  obtain ⟨commands, n, loggable, disk, survivors⟩ := sound.torn
  obtain ⟨torn, shape, cut⟩ := AofPersistence.framesWithin_cut commands n
  obtain ⟨store, replays⟩ := sound.replays _ List.prefix_rfl
  have kept := sound.loggable
  rw [← survivors] at shape
  have prepared :
      cfg.prepare reserve
          { life.around with openAof := fun _ => some ledger.disk } =
        ⟨AofPersistence.dispatchAll life.around.replayClock 0
            (cfg.freshBackend life.around.startTime) ledger.survivors,
          some ⟨AofPersistence.wire ledger.survivors⟩⟩ := by
    simp only [Config.prepare, enabled, if_true, disk, shape]
    rw [AofPersistence.replay_wire_append kept
      (AofPersistence.decode_torn loggable cut)]
  have aof :
      (life.boot reserve cfg ledger.disk).loop.server.aof =
        (cfg.prepare reserve
          { life.around with openAof := fun _ => some ledger.disk }).aof :=
    rfl
  have backend :
      (life.boot reserve cfg ledger.disk).loop.server.backend.store =
        (cfg.prepare reserve
          { life.around with
            openAof := fun _ => some ledger.disk }).backend.store :=
    rfl
  refine ⟨by rw [aof, prepared], ?_⟩
  rw [backend, prepared, replays.reaches _ _ rfl]
  exact replays

/-- A life executes its commands one after the other, and logs the writes. -/
theorem Sound.final
    (sound : ledger.Sound reserve)
    (enabled : cfg.aofEnabled = true)
    (life : Life) :
    let executed := life.executed reserve cfg ledger.disk
    (life.final reserve cfg ledger.disk).file =
        AofPersistence.wire (ledger.survivors ++ loggedCommands executed) ∧
      (∀ dispatch ∈ executed,
        AofPersistence.Loggable reserve dispatch.cmd) ∧
      Sequential
        (life.boot reserve cfg ledger.disk).loop.server.backend.store
        executed
        (life.final reserve cfg ledger.disk).loop.server.backend.store := by
  intro executed
  have executes :
      (life.boot reserve cfg ledger.disk).loop.server.Executes reserve
        executed (life.final reserve cfg ledger.disk).loop.server :=
    (Process.orderly_launch _ cfg).after_executes life.events
  refine ⟨?_, executes.loggable, executes.store⟩
  rw [Process.file, executes.aof, (sound.boot enabled life).1]
  exact (AofPersistence.wire_append _ _).symm

/-- Where what is logged begins, in a part of survivors and newer commands. -/
theorem initial_cases
    {early commands more : List Command}
    (initial : early <+: commands ++ more) :
    early <+: commands ∨
      ∃ newer, newer <+: more ∧ early = commands ++ newer := by
  rcases List.prefix_or_prefix_of_prefix initial
      (List.prefix_append commands more) with
    shorter | ⟨newer, rfl⟩
  · exact Or.inl shorter
  · exact Or.inr ⟨newer, (List.prefix_append_right_inj commands).mp initial,
      rfl⟩

theorem Sound.pass
    (sound : ledger.Sound reserve)
    (enabled : cfg.aofEnabled = true)
    {life : Life}
    (noExpiry :
      ∀ dispatch ∈ life.executed reserve cfg ledger.disk,
        dispatch.NoExpiry) :
    (ledger.pass reserve cfg life).Sound reserve := by
  obtain ⟨file, loggable, sequential⟩ := sound.final enabled life
  obtain ⟨-, replays⟩ := sound.boot enabled life
  refine ⟨⟨_, life.kept, ?_, ?_, rfl⟩, ?_⟩
  · refine List.forall_mem_append.mpr ⟨sound.loggable, fun cmd member => ?_⟩
    obtain ⟨dispatch, executed, rfl⟩ :=
      List.mem_map.mp (List.mem_filter.mp member).1
    exact loggable dispatch executed
  · rw [Ledger.pass, file]
  · intro early initial
    have whole := initial.trans (AofPersistence.framesWithin_initial _ _)
    rcases initial_cases whole with older | ⟨newer, logged, rfl⟩
    · exact sound.replays early older
    · obtain ⟨before, after, middle, split, rfl, chain⟩ :=
        sequential.exists_moment logged
      refine ⟨middle, replays.sequential chain fun one member => ?_⟩
      exact noExpiry one (split ▸ List.mem_append_left after member)

theorem Sound.run
    (enabled : cfg.aofEnabled = true)
    {lives : List Life}
    (noExpiry :
      ∀ dispatch ∈ (machine reserve cfg).emitted empty lives,
        dispatch.NoExpiry) :
    ((machine reserve cfg).run empty lives).Sound reserve :=
  Machine.invariant_of_emitted (Sound reserve) Dispatch.NoExpiry
    (fun _ _ sound only => sound.pass enabled only) sound_empty noExpiry

end Ledger

end Vortek
