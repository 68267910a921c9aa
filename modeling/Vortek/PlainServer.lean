import Vortek.CollectionRefinement
import Vortek.ServedHistory

namespace Vortek

/-!
# All clients see one plain store

The answers that the clients of a server got, taken in the order of execution,
are those of the plain model of collections: one store without expiry, without
empty collections and without any notion of connections.  This holds however the
bytes of the clients were cut and interleaved, and whenever the expiry thread
ran, as long as only commands of the plain model have written.
-/

/--
Answers that the plain model allows, one command after the other.  Other
commands may be answered in any way; they do not concern the plain model.
-/
inductive PlainRun :
    PlainStore → List (Command × List RespValue) → PlainStore → Prop where
  | nil (plain : PlainStore) :
      PlainRun plain [] plain
  | collection
      {plain last : PlainStore}
      {answers : List (Command × List RespValue)}
      (command : CollectionCommand)
      (reply : RespValue)
      (allowed : (plain.apply command).1.Allows reply)
      (rest : PlainRun (plain.apply command).2 answers last) :
      PlainRun plain ((command.toCommand, [reply]) :: answers) last
  | other
      {plain last : PlainStore}
      {answers : List (Command × List RespValue)}
      (cmd : Command)
      (replies : List RespValue)
      (outside : ∀ command : CollectionCommand, cmd ≠ command.toCommand)
      (rest : PlainRun plain answers last) :
      PlainRun plain ((cmd, replies) :: answers) last

/-- The command belongs to the plain model, or does not write. -/
def Command.Modelled (cmd : Command) : Prop :=
  (∃ command : CollectionCommand, cmd = command.toCommand) ∨
    AofPersistence.isWriteCommand cmd.name = false

/-- How many arguments some commands have altogether. -/
def totalArgs (commands : List Command) : Nat :=
  (commands.map fun cmd => cmd.args.length).sum

theorem CollectionCommand.pushed_le_args
    (command : CollectionCommand) :
    command.pushed ≤ command.toCommand.args.length := by
  cases command with
  | lpush | rpush =>
      simp only [pushed, toCommand, List.length_cons]
      omega
  | lpop | rpop | llen | lrange | lindex | sadd | srem | smembers
  | sismember | scard | hset | hget | hdel | hgetall | hexists | hlen | set
  | del | exists? =>
      exact Nat.zero_le _

/-- Commands that are executed one after the other follow the plain model. -/
theorem Sequential.plainRun
    {first last : KvStore}
    {dispatches : List Dispatch}
    {plain : PlainStore}
    {bound : Nat}
    (sequential : Sequential first dispatches last)
    (represents : first.Represents plain)
    (within : plain.ListsWithin bound)
    (modelled : ∀ dispatch ∈ dispatches, dispatch.cmd.Modelled)
    (fits : bound + totalArgs (dispatches.map Dispatch.cmd) < 2 ^ 63) :
    ∃ final,
      PlainRun plain (dispatches.map Dispatch.answer) final ∧
        last.Represents final := by
  induction dispatches generalizing first plain bound with
  | nil =>
      have same :=
        KvStore.SweptTo.eq_of_noDeadlines sequential represents.noDeadlines
      exact ⟨plain, .nil plain, same ▸ represents⟩
  | cons dispatch later inductionHypothesis =>
      obtain ⟨swept, sequential⟩ := sequential
      obtain ⟨now, rest⟩ := List.forall_mem_cons.mp modelled
      have found := swept.eq_of_noDeadlines represents.noDeadlines
      rw [← found] at represents
      simp only [totalArgs, List.map_cons, List.sum_cons] at fits
      by_cases inside :
        ∃ command : CollectionCommand, dispatch.cmd = command.toCommand
      · obtain ⟨command, same⟩ := inside
        have follows :
            Follows (dispatch.backend.dispatch dispatch.now dispatch.cmd)
              (plain.apply command) := by
          rw [same]
          exact follows_apply dispatch.now represents within (by omega)
            command
        obtain ⟨⟨reply, outcome, allowed⟩, left⟩ := follows
        have pushes := command.pushed_le_args
        rw [← same] at pushes
        obtain ⟨final, run, final_represents⟩ :=
          inductionHypothesis sequential left
            (listsWithin_apply within command) rest
            (by rw [totalArgs]; omega)
        have answer :
            dispatch.answer = (command.toCommand, [reply]) := by
          rw [Dispatch.answer, Dispatch.reply, Dispatch.outcome, outcome,
            same]
        refine ⟨final, ?_, final_represents⟩
        rw [List.map_cons, answer]
        exact .collection command reply allowed run
      · have kept : dispatch.left = dispatch.backend.store :=
          Backend.dispatch_store_of_not_write (now.resolve_left inside)
        rw [kept] at sequential
        obtain ⟨final, run, final_represents⟩ :=
          inductionHypothesis sequential represents within rest
            (by rw [totalArgs]; omega)
        exact ⟨final,
          .other _ _ (fun command same => inside ⟨command, same⟩) run,
          final_represents⟩

/--
If only commands of the plain model have written, with fewer than `2 ^ 63`
arguments altogether, then a server that starts with an empty store has answered
its clients as one plain store would have, command after command, and holds the
contents of that store.
-/
theorem Process.clients_see_plain_store
    (reserve : Reserve)
    (around : Surroundings)
    (cfg : Config)
    (events : List ProcessEvent)
    (fresh :
      (launch reserve around cfg).loop.server.backend.store =
        KvStore.empty)
    (modelled :
      ∀ dispatch ∈ (launch reserve around cfg).executed reserve events,
        dispatch.cmd.Modelled)
    (fits :
      totalArgs
          (((launch reserve around cfg).executed reserve events).map
            Dispatch.cmd) <
        2 ^ 63) :
    let loop := ((launch reserve around cfg).after reserve events).loop
    ∃ plain,
      PlainRun PlainStore.empty
          (servedAnswers
            (Happening.exchanges cfg.serverConfig.requirepass
              loop.history))
          plain ∧
        loop.server.backend.store.Represents plain := by
  intro loop
  have served :
      loop.served cfg.serverConfig.requirepass =
        ((launch reserve around cfg).executed reserve events).map
          Dispatch.answer :=
    (audited_launch reserve around cfg).after_served events
  have executes :
      (launch reserve around cfg).loop.server.Executes reserve
        ((launch reserve around cfg).executed reserve events) loop.server :=
    (orderly_launch around cfg).after_executes events
  have within : PlainStore.empty.ListsWithin 0 := by
    intro key elements same
    cases same
    exact Nat.le_refl 0
  have sequential := executes.store
  rw [fresh] at sequential
  obtain ⟨plain, run, represents⟩ :=
    sequential.plainRun KvStore.Represents.empty within modelled
      (by rwa [Nat.zero_add])
  rw [← served] at run
  exact ⟨plain, run, represents⟩

/-- Two clients push to one list, and one of them reads it. -/
theorem Process.clients_see_plain_store_two_clients :
    let around : Surroundings :=
      ⟨fun _ => .error [], fun _ => none, 0, fun _ => 0, fun _ => true⟩
    let commands : List CollectionCommand :=
      [.rpush (ascii "k") (ascii "a") [], .rpush (ascii "k") (ascii "b") [],
        .llen (ascii "k")]
    let read (id : Nat) (commands : List CollectionCommand) : ProcessEvent :=
      .complete id
        (.readDone (fun _ => 5)
          (AofPersistence.wire (commands.map CollectionCommand.toCommand)))
    let events : List ProcessEvent :=
      [.acceptDone (.socket 1 true), .acceptDone (.socket 2 true),
        read 1 (commands.take 1), .sweep 9, read 2 (commands.drop 1)]
    let loop :=
      ((launch (fun _ => none) around {}).after (fun _ => none) events).loop
    ∃ plain,
      PlainRun PlainStore.empty
          (servedAnswers (Happening.exchanges [] loop.history)) plain ∧
        loop.server.backend.store.Represents plain := by
  intro around commands read events
  have executed :
      ((launch (fun _ => none) around {}).executed (fun _ => none)
          events).map Dispatch.cmd =
        commands.map CollectionCommand.toCommand := by
    decide +kernel
  refine clients_see_plain_store (fun _ => none) around {} events rfl
    (fun dispatch member => ?_) ?_
  · have there := List.mem_map_of_mem (f := Dispatch.cmd) member
    rw [executed] at there
    obtain ⟨command, -, same⟩ := List.mem_map.mp there
    exact Or.inl ⟨command, same.symm⟩
  · rw [executed]
    decide

end Vortek
